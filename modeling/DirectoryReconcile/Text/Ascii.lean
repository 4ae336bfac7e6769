/-!
# ASCII letters

Comparison and lower case that touch the letters `A` to `Z` only.
-/

namespace DirectoryReconcile.Text

/-- The text with `A` to `Z` in lower case and every other character kept. -/
def lowerAscii (s : String) : String := String.ofList (s.toList.map Char.toLower)

/-- Equality up to the case of ASCII letters. -/
def sameIgnoringCase (a b : String) : Bool := lowerAscii a = lowerAscii b

/-- Whether one text ends with another. -/
def endsWith (s tail : String) : Bool := tail.toList.isSuffixOf s.toList

/-- Whether one text stands somewhere inside another. -/
def isInside (part : List Char) : List Char → Bool
  | [] => part.isEmpty
  | c :: rest => part.isPrefixOf (c :: rest) || isInside part rest

def containsText (s part : String) : Bool := isInside part.toList s.toList

theorem endsWith_iff {s tail : String} : endsWith s tail = true ↔ ∃ lead, s = lead ++ tail := by
  rw [endsWith, List.isSuffixOf_iff_suffix]
  constructor
  · rintro ⟨lead, h⟩
    exact ⟨String.ofList lead, String.toList_inj.1 (by simp [h])⟩
  · rintro ⟨lead, rfl⟩
    exact ⟨lead.toList, by simp⟩

theorem sameIgnoringCase_refl (s : String) : sameIgnoringCase s s := by
  simp [sameIgnoringCase]

theorem sameIgnoringCase_symm {a b : String} (h : sameIgnoringCase a b) : sameIgnoringCase b a := by
  simpa [sameIgnoringCase, eq_comm] using h

theorem sameIgnoringCase_trans {a b c : String} (hab : sameIgnoringCase a b)
    (hbc : sameIgnoringCase b c) : sameIgnoringCase a c := by
  simp only [sameIgnoringCase, decide_eq_true_eq] at *
  exact hab.trans hbc

end DirectoryReconcile.Text
