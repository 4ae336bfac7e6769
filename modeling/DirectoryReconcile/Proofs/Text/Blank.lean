import DirectoryReconcile.Text.Blank
import Mathlib.Data.List.DropRight

/-!
# What trimming leaves

A trimmed text is the only part of a text that has nothing but blanks around it and no blank at its
own ends.
-/

namespace DirectoryReconcile.Text

theorem dropEndWhile_eq_iff {p : Char → Bool} {cs kept : List Char} :
    dropEndWhile p cs = kept ↔ (∃ ends, cs = kept ++ ends ∧ ∀ c ∈ ends, p c) ∧
      ∀ hne : kept ≠ [], ¬p (kept.getLast hne) := by
  constructor
  · rintro rfl
    exact ⟨⟨cs.rtakeWhile p, List.rdropWhile_append_rtakeWhile.symm,
      fun c hc ↦ List.mem_rtakeWhile_imp hc⟩, List.rdropWhile_last_not p cs⟩
  · rintro ⟨⟨ends, rfl, hends⟩, hlast⟩
    rw [dropEndWhile, List.reverse_append,
      List.dropWhile_append_of_pos fun c hc ↦ hends c (List.mem_reverse.1 hc)]
    exact List.rdropWhile_eq_self_iff.2 hlast

/-- A text with other characters than blanks at its ends, if it has any. -/
structure IsBare (s : String) : Prop where
  first : ∀ hne : s.toList ≠ [], ¬isBlank (s.toList.head hne)
  last : ∀ hne : s.toList ≠ [], ¬isBlank (s.toList.getLast hne)

variable {s kept : String}

theorem trim_eq_iff : trim s = kept ↔
    (∃ lead trail, s.toList = lead ++ kept.toList ++ trail ∧ ∀ c ∈ lead ++ trail, isBlank c) ∧
      IsBare kept := by
  constructor
  · rintro rfl
    have htrim : (trim s).toList = trimChars s.toList := String.toList_ofList
    obtain ⟨⟨trail, hcut, htrail⟩, hlast⟩ := dropEndWhile_eq_iff.1 htrim.symm
    refine ⟨⟨s.toList.takeWhile isBlank, trail, ?_, fun c hc ↦ ?_⟩, fun hne ↦ ?_, hlast⟩
    · rw [List.append_assoc, ← hcut, List.takeWhile_append_dropWhile]
    · exact (List.mem_append.1 hc).elim List.mem_takeWhile_imp (htrail c)
    · have hhead := List.head?_dropWhile_not isBlank s.toList
      rw [hcut, List.head?_append_of_ne_nil _ hne, List.head?_eq_some_head hne] at hhead
      simpa using hhead
  · rintro ⟨⟨lead, trail, hs, hblank⟩, hfirst, hlast⟩
    obtain ⟨hlead, htrail⟩ := List.forall_mem_append.1 hblank
    refine String.toList_inj.1 ?_
    rw [trim, String.toList_ofList, trimChars, hs, List.append_assoc,
      List.dropWhile_append_of_pos hlead]
    cases hkept : kept.toList with
    | nil =>
      rw [List.nil_append, List.dropWhile_eq_nil_iff.2 htrail]
      rfl
    | cons c rest =>
      simp only [hkept] at hfirst hlast
      have hc : ¬isBlank c := hfirst (List.cons_ne_nil c rest)
      rw [List.cons_append, List.dropWhile_cons_of_neg hc, ← List.cons_append]
      exact dropEndWhile_eq_iff.2 ⟨⟨trail, rfl, htrail⟩, hlast⟩

theorem trim_eq_empty_iff : trim s = "" ↔ ∀ c ∈ s.toList, isBlank c := by
  rw [trim_eq_iff]
  constructor
  · rintro ⟨⟨lead, trail, hs, hblank⟩, -⟩
    rw [hs]
    simpa using hblank
  · exact fun h ↦ ⟨⟨s.toList, [], by simp, by simpa using h⟩, nofun, nofun⟩

end DirectoryReconcile.Text
