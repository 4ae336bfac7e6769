import DirectoryReconcile.Text.Ascii
import DirectoryReconcile.Text.LowerCase
import Mathlib.Tactic.SplitIfs

/-!
# Words in any case

The lower case of a text in any script is a plain ASCII word only if the text is this word with some
letters in upper case. The one character outside ASCII whose lower case is an ASCII letter is the
Kelvin sign, so this holds of words without the letter `k`.
-/

namespace DirectoryReconcile.Text

namespace LowerCase

/-- A small ASCII letter that no character outside ASCII has as its lower case. -/
structure IsPlain (w : Char) : Prop where
  least : 97 ≤ w.toNat
  greatest : w.toNat ≤ 122
  notKelvin : w ≠ 'k'

instance (w : Char) : Decidable (IsPlain w) :=
  decidable_of_iff (97 ≤ w.toNat ∧ w.toNat ≤ 122 ∧ w ≠ 'k')
    ⟨fun ⟨hleast, hgreatest, hkelvin⟩ ↦ ⟨hleast, hgreatest, hkelvin⟩,
      fun h ↦ ⟨h.least, h.greatest, h.notKelvin⟩⟩

theorem isUpper_iff {c : Char} : c.isUpper = true ↔ 65 ≤ c.toNat ∧ c.toNat ≤ 90 := by
  change decide (65 ≤ c.val ∧ c.val ≤ 90) = true ↔ _
  rw [decide_eq_true_iff, UInt32.le_iff_toNat_le, UInt32.le_iff_toNat_le]
  rfl

theorem toNat_toLower {c : Char} (h : c.isUpper) : c.toLower.toNat = c.toNat + 32 := by
  have hlast : c.val.toNat ≤ 90 := (isUpper_iff.1 h).2
  have hlower : c.toLower = ⟨c.val + 32, _⟩ := dif_pos (of_decide_eq_true h)
  rw [hlower]
  change (c.val + 32).toNat = c.val.toNat + 32
  rw [UInt32.toNat_add, Nat.mod_eq_of_lt]
  · rfl
  · exact Nat.lt_of_le_of_lt (Nat.add_le_add_right hlast 32) (by decide)

theorem toLower_of_not_isUpper {c : Char} (h : ¬c.isUpper) : c.toLower = c :=
  dif_neg (mt decide_eq_true h)

/-- A number that is none of a character stands for the first one. -/
theorem toNat_ofNat_cases (n : Nat) : (Char.ofNat n).toNat = n ∨ (Char.ofNat n).toNat = 0 := by
  by_cases hvalid : n.isValidChar
  · have hof : Char.ofNat n = Char.ofNatAux n hvalid := dif_pos hvalid
    exact .inl (hof ▸ rfl)
  · have hof : Char.ofNat n = ⟨0, _⟩ := dif_neg hvalid
    exact .inr (hof ▸ rfl)

/-- Apart from the capitals of ASCII and from the Kelvin sign, runs stand outside ASCII and lead to
characters outside ASCII. -/
theorem run_cases {run : Nat × Nat × Nat × Int} (h : run ∈ runs) :
    run = (0x41, 0x5a, 1, 32) ∨ run = (0x212a, 0x212a, 1, -8383) ∨
      0x80 ≤ run.1 ∧ 0x80 ≤ (run.1 : Int) + run.2.2.2 := by
  revert run
  decide +kernel

/-- The image of a character by the run that holds it. -/
theorem lowerChar_eq (c : Char) : lowerChar c = c ∨ ∃ run ∈ runs, run.1 ≤ c.toNat ∧
    c.toNat ≤ run.2.1 ∧ lowerChar c = Char.ofNat (Int.toNat (c.toNat + run.2.2.2)) := by
  unfold lowerChar
  simp only
  split
  next run hfind =>
    have hholds := List.find?_some hfind
    simp only [Bool.and_eq_true, decide_eq_true_eq] at hholds
    exact .inr ⟨run, List.mem_of_find?_eq_some hfind, hholds.1.1, hholds.1.2, rfl⟩
  next => exact .inl rfl

theorem lowerChar_of_isUpper {c : Char} (h : c.isUpper) : lowerChar c = c.toLower := by
  obtain ⟨hfirst, hlast⟩ := isUpper_iff.1 h
  have hfind : runs.find? (fun run ↦ run.1 ≤ c.toNat && c.toNat ≤ run.2.1 &&
      (c.toNat - run.1) % run.2.2.1 = 0) = some (0x41, 0x5a, 1, 32) := by
    refine List.find?_cons_of_pos ?_
    simp [hfirst, hlast, Nat.mod_one]
  have himage : ((c.toNat : Int) + 32).toNat = c.toNat + 32 := by omega
  unfold lowerChar
  simp only [hfind, himage]
  rw [← toNat_toLower h, Char.ofNat_toNat]

theorem lowerChar_eq_iff {c w : Char} (hw : IsPlain w) : lowerChar c = w ↔ c.toLower = w := by
  by_cases hupper : c.isUpper
  · rw [lowerChar_of_isUpper hupper]
  rw [toLower_of_not_isUpper hupper]
  rcases lowerChar_eq c with hsame | ⟨run, hrun, hfirst, hlast, himage⟩
  · rw [hsame]
  -- A character that another run holds is not `w`, and its image is not either.
  have hleast := hw.least
  have hgreatest := hw.greatest
  rw [himage]
  rcases run_cases hrun with rfl | rfl | ⟨hstart, hend⟩
  · exact absurd (isUpper_iff.2 ⟨hfirst, hlast⟩) hupper
  · have hkelvin : c.toNat = 0x212a := Nat.le_antisymm hlast hfirst
    refine iff_of_false ?_ ?_
    · rw [hkelvin]
      exact hw.notKelvin.symm
    · rintro rfl
      omega
  · refine iff_of_false ?_ ?_
    · intro h
      have hnat := congrArg Char.toNat h
      rcases toNat_ofNat_cases (Int.toNat (c.toNat + run.2.2.2)) with himage | himage <;> omega
    · rintro rfl
      omega

theorem not_isPlain {c : Char} (h : 122 < c.toNat) : ¬IsPlain c :=
  fun hc ↦ absurd hc.greatest (by omega)

theorem ne_of_not_isPlain {word cs : List Char} (hword : ∀ w ∈ word, IsPlain w) {c : Char}
    (hc : ¬IsPlain c) (hmem : c ∈ cs) : cs ≠ word := by
  rintro rfl
  exact hc (hword c hmem)

/-- A text becomes a plain word exactly if its ASCII letters alone make it this word. -/
theorem lowerFrom_eq_iff {before cs word : List Char} (hword : ∀ w ∈ word, IsPlain w) :
    lowerFrom before cs = word ↔ cs.map Char.toLower = word := by
  induction cs generalizing before word with
  | nil => rfl
  | cons c rest ih =>
    rw [lowerFrom, List.map_cons]
    split_ifs with hdotted hsigma hend
    -- The image of either special letter has a character outside ASCII, as the letter itself.
    · subst hdotted
      exact iff_of_false
        (ne_of_not_isPlain hword (not_isPlain (c := '\u0307') (by decide)) (by simp))
        (ne_of_not_isPlain hword (not_isPlain (c := 'İ') (by decide)) List.mem_cons_self)
    · subst hsigma
      exact iff_of_false
        (ne_of_not_isPlain hword (not_isPlain (c := 'ς') (by decide)) List.mem_cons_self)
        (ne_of_not_isPlain hword (not_isPlain (c := 'Σ') (by decide)) List.mem_cons_self)
    · subst hsigma
      exact iff_of_false
        (ne_of_not_isPlain hword (not_isPlain (c := 'σ') (by decide)) List.mem_cons_self)
        (ne_of_not_isPlain hword (not_isPlain (c := 'Σ') (by decide)) List.mem_cons_self)
    · cases word with
      | nil => simp
      | cons w ws =>
        obtain ⟨hw, hws⟩ := List.forall_mem_cons.1 hword
        rw [List.singleton_append, List.cons.injEq, List.cons.injEq, lowerChar_eq_iff hw, ih hws]

end LowerCase

/-- A text is a plain word in any case exactly if it is this word up to the case of its ASCII
letters. -/
theorem lower_eq_iff {s word : String} (hword : ∀ w ∈ word.toList, LowerCase.IsPlain w) :
    lower s = word ↔ lowerAscii s = word := by
  rw [lower, lowerAscii, ← String.toList_inj, ← String.toList_inj, String.toList_ofList,
    String.toList_ofList, LowerCase.lowerFrom_eq_iff hword]

end DirectoryReconcile.Text
