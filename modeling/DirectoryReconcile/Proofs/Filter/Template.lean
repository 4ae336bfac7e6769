import DirectoryReconcile.Filter
import Mathlib.Tactic.ByContra
import Mathlib.Tactic.SplitIfs

/-!
# Filling templates

A template can be filled exactly if it is made of tokens, and then it is made of them in one way.
Doubled braces become single ones, a pair of braces becomes the item, and braces in the item mean
nothing.
-/

namespace DirectoryReconcile

namespace Template

/-! ## The texts that templates are made of -/

inductive IsToken : List Char → Prop
  | character {c : Char} (hopen : c ≠ '{') (hclose : c ≠ '}') : IsToken [c]
  | openBraces : IsToken ['{', '{']
  | closeBraces : IsToken ['}', '}']
  | item : IsToken ['{', '}']
  | numberedItem : IsToken ['{', '0', '}']

/-- What a token becomes when a template is filled with an item. -/
def replaced (item : List Char) : List Char → List Char
  | ['{', '{'] => ['{']
  | ['}', '}'] => ['}']
  | ['{', '}'] | ['{', '0', '}'] => item
  | token => token

/-- A text is these tokens one after the other. -/
structure IsMadeOf (cs : List Char) (pieces : List (List Char)) : Prop where
  tokens : ∀ piece ∈ pieces, IsToken piece
  flatten : pieces.flatten = cs

/-- How a token is written. -/
def Token.written : Token → List Char
  | .literal c => [c]
  | .openBrace => ['{', '{']
  | .closeBrace => ['}', '}']
  | .item => ['{', '}']
  | .numberedItem => ['{', '0', '}']

variable {cs piece : List Char} {pieces : List (List Char)} {token : Token} {tokens : List Token}

/-! ## Reading what is made of tokens -/

theorem parse?_literal {c : Char} (hopen : c ≠ '{') (hclose : c ≠ '}') (rest : List Char) :
    parse? (c :: rest) = (parse? rest).map (.literal c :: ·) := by
  rw [parse?]
  · simp [hopen, hclose]
  · exact fun _ hbrace _ ↦ hopen hbrace
  · exact fun _ hbrace _ ↦ hclose hbrace
  · exact fun _ hbrace _ ↦ hopen hbrace
  · exact fun _ hbrace _ ↦ hopen hbrace

/-- No token starts with another one, so what follows does not matter. -/
theorem exists_parse?_append (h : IsToken piece) : ∃ token : Token, token.written = piece ∧
    (∀ item, token.fill item = replaced item piece) ∧
      ∀ rest, parse? (piece ++ rest) = (parse? rest).map (token :: ·) := by
  cases h with
  | @character c hopen hclose =>
    refine ⟨.literal c, rfl, fun item ↦ ?_, parse?_literal hopen hclose⟩
    simp [Token.fill, replaced]
  | openBraces => exact ⟨.openBrace, rfl, fun _ ↦ rfl, fun _ ↦ by simp [parse?]⟩
  | closeBraces => exact ⟨.closeBrace, rfl, fun _ ↦ rfl, fun _ ↦ by simp [parse?]⟩
  | item => exact ⟨.item, rfl, fun _ ↦ rfl, fun _ ↦ by simp [parse?]⟩
  | numberedItem => exact ⟨.numberedItem, rfl, fun _ ↦ rfl, fun _ ↦ by simp [parse?]⟩

theorem exists_parse?_flatten (h : ∀ piece ∈ pieces, IsToken piece) : ∃ tokens : List Token,
    parse? pieces.flatten = some tokens ∧ tokens.map Token.written = pieces ∧
      ∀ item, tokens.flatMap (Token.fill item) = pieces.flatMap (replaced item) := by
  induction pieces with
  | nil => exact ⟨[], rfl, rfl, fun _ ↦ rfl⟩
  | cons piece rest ih =>
    obtain ⟨hpiece, hrest⟩ := List.forall_mem_cons.1 h
    obtain ⟨token, hwritten, hfill, hparse⟩ := exists_parse?_append hpiece
    obtain ⟨tokens, hparses, hwrittens, hfills⟩ := ih hrest
    refine ⟨token :: tokens, ?_, ?_, fun item ↦ ?_⟩
    · rw [List.flatten_cons, hparse, hparses]
      rfl
    · rw [List.map_cons, hwritten, hwrittens]
    · rw [List.flatMap_cons, List.flatMap_cons, hfill, hfills]

theorem parse?_of_isMadeOf (h : IsMadeOf cs pieces) : ∃ tokens, parse? cs = some tokens ∧
    tokens.map Token.written = pieces ∧
      ∀ item, tokens.flatMap (Token.fill item) = pieces.flatMap (replaced item) := by
  obtain ⟨htokens, rfl⟩ := h
  exact exists_parse?_flatten htokens

theorem IsMadeOf.unique {others : List (List Char)} (h : IsMadeOf cs pieces)
    (hothers : IsMadeOf cs others) : others = pieces := by
  obtain ⟨tokens, hparse, rfl, -⟩ := parse?_of_isMadeOf h
  obtain ⟨tokens', hparse', rfl, -⟩ := parse?_of_isMadeOf hothers
  cases hparse.symm.trans hparse'
  rfl

/-! ## What can be read -/

/-- One more token in front of what is made of tokens as soon as it can be read. -/
theorem isMadeOf_of_map {rest : List Char} (h : (parse? rest).map (token :: ·) = some tokens)
    (hrest : ∀ {tokens}, parse? rest = some tokens → IsMadeOf rest (tokens.map Token.written))
    (htoken : IsToken token.written) :
    IsMadeOf (token.written ++ rest) (tokens.map Token.written) := by
  obtain ⟨found, hfound, rfl⟩ := Option.map_eq_some_iff.1 h
  have hmade := hrest hfound
  rw [List.map_cons]
  refine ⟨List.forall_mem_cons.2 ⟨htoken, hmade.tokens⟩, ?_⟩
  rw [List.flatten_cons, hmade.flatten]

theorem isMadeOf_of_parse? (h : parse? cs = some tokens) :
    IsMadeOf cs (tokens.map Token.written) := by
  fun_induction parse? cs generalizing tokens with
  | case1 =>
    cases h
    exact ⟨nofun, rfl⟩
  | case2 rest ih => exact isMadeOf_of_map h ih .openBraces
  | case3 rest ih => exact isMadeOf_of_map h ih .closeBraces
  | case4 rest ih => exact isMadeOf_of_map h ih .item
  | case5 rest ih => exact isMadeOf_of_map h ih .numberedItem
  | case6 => cases h
  | case7 c rest _ _ _ _ hbrace ih =>
    simp only [Bool.or_eq_true, decide_eq_true_eq, not_or] at hbrace
    exact isMadeOf_of_map h ih (.character hbrace.1 hbrace.2)

theorem parse?_eq_none_iff : parse? cs = none ↔ ¬∃ pieces, IsMadeOf cs pieces := by
  constructor
  · rintro hnone ⟨pieces, h⟩
    obtain ⟨tokens, hparse, -⟩ := parse?_of_isMadeOf h
    cases hnone.symm.trans hparse
  · intro h
    rw [Option.eq_none_iff_forall_ne_some]
    exact fun tokens hparse ↦ h ⟨_, isMadeOf_of_parse? hparse⟩

/-! ## Doubled braces -/

/-- How a template says a character. -/
def doubled (c : Char) : List Char := if c = '{' ∨ c = '}' then [c, c] else [c]

/-- The text with every brace doubled. -/
def doubleBraces (text : String) : String := String.ofList (text.toList.flatMap doubled)

theorem isMadeOf_doubleBraces (text : String) :
    IsMadeOf (doubleBraces text).toList (text.toList.map doubled) := by
  refine ⟨List.forall_mem_map.2 fun c _ ↦ ?_, ?_⟩
  · unfold doubled
    split_ifs with hbrace
    · rcases hbrace with rfl | rfl
      · exact .openBraces
      · exact .closeBraces
    · obtain ⟨hopen, hclose⟩ := not_or.1 hbrace
      exact .character hopen hclose
  · rw [doubleBraces, String.toList_ofList, List.flatMap_def]

theorem replaced_doubled (item : List Char) (c : Char) : replaced item (doubled c) = [c] := by
  unfold doubled
  split_ifs with hbrace
  · rcases hbrace with rfl | rfl <;> rfl
  · simp [replaced]

end Template

namespace Filter

open Template

variable {template : String} {items : List String}

theorem filled_of_isMadeOf (hitems : items ≠ []) {pieces : List (List Char)}
    (h : IsMadeOf template.toList pieces) : filled template items =
      .ok (items.map fun item ↦ String.ofList (pieces.flatMap (replaced item.toList))) := by
  have hempty : items.isEmpty = false := by simpa using hitems
  obtain ⟨tokens, hparse, -, hfill⟩ := parse?_of_isMadeOf h
  simp only [filled, fillEach?, hempty, hparse, ← hfill]
  rfl

theorem filled_of_not_isMadeOf (hitems : items ≠ [])
    (h : ¬∃ pieces, IsMadeOf template.toList pieces) :
    filled template items = .error (.placeholder template) := by
  have hempty : items.isEmpty = false := by simpa using hitems
  simp only [filled, fillEach?, hempty, parse?_eq_none_iff.2 h]
  rfl

/-- A template can be filled exactly if it is made of tokens. These are then the only ones, and each
item gives the text in which they are replaced one by one. Any other template is refused as a whole.
What a text with every brace doubled gives is the text itself, for every item. -/
theorem filled_iff_isMadeOf (hitems : items ≠ []) (template : String) :
    ((∃ texts, filled template items = .ok texts) ↔ ∃ pieces, IsMadeOf template.toList pieces) ∧
      (∀ pieces, IsMadeOf template.toList pieces →
        (∀ others, IsMadeOf template.toList others → others = pieces) ∧
        filled template items =
          .ok (items.map fun item ↦ String.ofList (pieces.flatMap (replaced item.toList)))) ∧
      ((¬∃ pieces, IsMadeOf template.toList pieces) →
        filled template items = .error (.placeholder template)) ∧
      ∀ text, filled (doubleBraces text) items = .ok (items.map fun _ ↦ text) := by
  refine ⟨⟨?_, ?_⟩, ?_, filled_of_not_isMadeOf hitems, fun text ↦ ?_⟩
  · rintro ⟨texts, htexts⟩
    by_contra h
    cases htexts.symm.trans (filled_of_not_isMadeOf hitems h)
  · rintro ⟨pieces, h⟩
    exact ⟨_, filled_of_isMadeOf hitems h⟩
  · intro pieces h
    exact ⟨fun others hothers ↦ h.unique hothers, filled_of_isMadeOf hitems h⟩
  · rw [filled_of_isMadeOf hitems (isMadeOf_doubleBraces text)]
    simp only [List.flatMap_map, replaced_doubled, List.flatMap_singleton', String.ofList_toList]

/-- Three opening and three closing braces are single braces around the item, which may have braces
of its own. -/
theorem filled_iff_isMadeOf_nestedBraces : ["a", "\x7b0\x7d"] ≠ [] ∧
    filled "\x7b\x7b\x7b\x7d\x7d\x7d" ["a", "\x7b0\x7d"] =
      .ok ["\x7ba\x7d", "\x7b\x7b0\x7d\x7d"] := by
  have hitems : ["a", "\x7b0\x7d"] ≠ [] := by decide
  have hmade : IsMadeOf "\x7b\x7b\x7b\x7d\x7d\x7d".toList [['{', '{'], ['{', '}'], ['}', '}']] := by
    refine ⟨?_, by decide⟩
    simp only [List.forall_mem_cons]
    exact ⟨.openBraces, .item, .closeBraces, nofun⟩
  exact ⟨hitems, ((filled_iff_isMadeOf hitems _).2.1 _ hmade).2⟩

end Filter

end DirectoryReconcile
