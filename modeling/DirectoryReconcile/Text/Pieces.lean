/-!
# Cutting and joining texts

Cutting at every occurrence of a separator or at the first one only, and joining with a separator
between the pieces. Cutting and joining at the same character undo each other.
-/

namespace DirectoryReconcile.Text

/-- The pieces between the characters that pass; there is always at least one. -/
def cut (isSeparator : Char → Bool) : List Char → List (List Char)
  | [] => [[]]
  | c :: rest =>
    if isSeparator c then [] :: cut isSeparator rest
    else
      match cut isSeparator rest with
      | [] => [[c]]
      | piece :: pieces => (c :: piece) :: pieces

/-- The pieces between the occurrences of a character. -/
def splitAll (sep : Char) (s : String) : List String :=
  (cut (· == sep) s.toList).map String.ofList

/-- The pieces between separators that are not empty. -/
def words (isSeparator : Char → Bool) (s : String) : List String :=
  ((cut isSeparator s.toList).filter fun piece ↦ !piece.isEmpty).map String.ofList

/-- The text before and the text after the first occurrence of a character. -/
def cutFirst (sep : Char) : List Char → Option (List Char × List Char)
  | [] => none
  | c :: rest =>
    if c = sep then some ([], rest)
    else (cutFirst sep rest).map fun parts ↦ (c :: parts.1, parts.2)

def splitFirst (sep : Char) (s : String) : Option (String × String) :=
  (cutFirst sep s.toList).map fun parts ↦ (String.ofList parts.1, String.ofList parts.2)

/-- The pieces one after the other with a separator between neighbours. -/
def joinWith (sep : String) : List String → String
  | [] => ""
  | [piece] => piece
  | piece :: next :: rest => piece ++ sep ++ joinWith sep (next :: rest)

/-- A line without the carriage return at its end. -/
def trimReturn (line : List Char) : List Char :=
  if line.getLast? = some '\r' then line.dropLast else line

/-- The lines of a text: a newline ends a line, together with a carriage return right before it, and
what follows the last newline is a line if it is not empty. -/
def lines (s : String) : List String :=
  let pieces := cut (· == '\n') s.toList
  let rest := pieces.getLastD []
  let ended := pieces.dropLast.map trimReturn
  (if rest.isEmpty then ended else ended ++ [rest]).map String.ofList

/-- Cutting a text is splitting the list of its characters. -/
theorem cut_eq_splitOnP (isSeparator : Char → Bool) (cs : List Char) :
    cut isSeparator cs = cs.splitOnP isSeparator := by
  induction cs with
  | nil => rfl
  | cons c rest ih =>
    rw [cut, ih, List.splitOnP_cons_eq_if_modifyHead]
    cases hpieces : rest.splitOnP isSeparator with
    | nil => exact absurd hpieces (List.splitOnP_ne_nil isSeparator rest)
    | cons => rfl

theorem cut_ne_nil (isSeparator : Char → Bool) (cs : List Char) : cut isSeparator cs ≠ [] := by
  rw [cut_eq_splitOnP]
  exact List.splitOnP_ne_nil isSeparator cs

theorem forall_of_mem_cut {isSeparator : Char → Bool} {cs piece : List Char}
    (h : piece ∈ cut isSeparator cs) : ∀ c ∈ piece, isSeparator c = false := by
  induction cs generalizing piece with
  | nil => simp_all [cut]
  | cons c rest ih =>
    unfold cut at h
    split at h
    · rcases List.mem_cons.1 h with rfl | h
      · simp
      · exact ih h
    next hc =>
      split at h
      next hnil => exact absurd hnil (cut_ne_nil isSeparator rest)
      next first pieces hpieces =>
        rcases List.mem_cons.1 h with rfl | h
        · intro d hd
          rcases List.mem_cons.1 hd with rfl | hd
          · simpa using hc
          · exact ih (hpieces ▸ List.mem_cons_self) d hd
        · exact ih (hpieces ▸ List.mem_cons_of_mem _ h)

theorem joinWith_eq_intercalate (sep : String) (pieces : List String) :
    joinWith sep pieces = sep.intercalate pieces := by
  fun_induction joinWith sep pieces with
  | case1 => rw [String.intercalate_nil]
  | case2 piece => rw [String.intercalate_singleton]
  | case3 piece next rest ih => rw [String.intercalate_cons_cons, ih]

/-- The pieces of a text are the only texts without the separator that give it when they are joined
at the separator. -/
theorem splitAll_eq_iff {sep : Char} {s : String} {pieces : List String} :
    splitAll sep s = pieces ↔ (String.singleton sep).intercalate pieces = s ∧
      (∀ piece ∈ pieces, sep ∉ piece.toList) ∧ pieces ≠ [] := by
  have hcut (cs : List Char) : cut (· == sep) cs = cs.splitOn sep := cut_eq_splitOnP _ cs
  constructor
  · rintro rfl
    refine ⟨String.toList_inj.1 ?_, List.forall_mem_map.2 fun piece hpiece hmem ↦ ?_, ?_⟩
    · rw [String.toList_intercalate, String.toList_singleton, splitAll, List.map_map, hcut]
      simp [Function.comp_def, List.intercalate_splitOn]
    · simpa using forall_of_mem_cut hpiece sep (by simpa using hmem)
    · simpa [splitAll] using cut_ne_nil (· == sep) s.toList
  · rintro ⟨rfl, hfree, hne⟩
    rw [splitAll, hcut, String.toList_intercalate, String.toList_singleton,
      List.splitOn_intercalate sep (List.forall_mem_map.2 hfree) (by simpa using hne),
      List.map_map]
    simp [Function.comp_def]

theorem cutFirst_eq_none_iff {sep : Char} {cs : List Char} :
    cutFirst sep cs = none ↔ sep ∉ cs := by
  induction cs with
  | nil => simp [cutFirst]
  | cons c rest ih =>
    rw [cutFirst]
    split
    next h => simp [h]
    next h => simp [ih, Ne.symm h]

/-- The two parts with the separator between them are the text, and the first part has none. -/
theorem cutFirst_eq_some_iff {sep : Char} {cs before after : List Char} :
    cutFirst sep cs = some (before, after) ↔ cs = before ++ sep :: after ∧ sep ∉ before := by
  induction cs generalizing before with
  | nil => simp [cutFirst]
  | cons c rest ih =>
    rw [cutFirst]
    split
    next h =>
      subst h
      cases before <;> simp +contextual [eq_comm]
    next h =>
      cases before with
      | nil => simp [h]
      | cons d before =>
        simp only [Option.map_eq_some_iff, Prod.exists, Prod.mk.injEq, List.cons.injEq,
          List.cons_append, List.mem_cons, not_or]
        constructor
        · rintro ⟨_, _, hcut, ⟨rfl, rfl⟩, rfl⟩
          have := ih.1 hcut
          exact ⟨⟨rfl, this.1⟩, Ne.symm h, this.2⟩
        · rintro ⟨⟨rfl, rfl⟩, _, hmem⟩
          exact ⟨_, _, ih.2 ⟨rfl, hmem⟩, ⟨rfl, rfl⟩, rfl⟩

theorem splitFirst_eq_none_iff {sep : Char} {s : String} :
    splitFirst sep s = none ↔ sep ∉ s.toList := by
  rw [splitFirst, Option.map_eq_none_iff, cutFirst_eq_none_iff]

theorem splitFirst_eq_some_iff {sep : Char} {s before after : String} :
    splitFirst sep s = some (before, after) ↔
      s = before ++ String.singleton sep ++ after ∧ sep ∉ before.toList := by
  rw [splitFirst, Option.map_eq_some_iff]
  constructor
  · rintro ⟨⟨_, _⟩, hcut, heq⟩
    obtain ⟨rfl, rfl⟩ := Prod.mk.inj heq
    obtain ⟨hs, hsep⟩ := cutFirst_eq_some_iff.1 hcut
    exact ⟨String.toList_inj.1 (by simp [hs]), by simpa using hsep⟩
  · rintro ⟨rfl, hsep⟩
    exact ⟨(before.toList, after.toList), cutFirst_eq_some_iff.2 ⟨by simp, hsep⟩, by simp⟩

end DirectoryReconcile.Text
