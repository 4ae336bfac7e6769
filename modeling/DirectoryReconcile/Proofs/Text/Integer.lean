import DirectoryReconcile.Text.Integer
import Mathlib.Data.Nat.Digits.Defs

/-!
# Numerals

Which texts are read as a natural number, and as which one.
-/

namespace DirectoryReconcile.Text

/-- A text writes a number in decimal digits, perhaps with a plus sign in front. -/
def IsNumeral (s : String) (n : Nat) : Prop :=
  ∃ digits : List Char, (s.toList = digits ∨ s.toList = '+' :: digits) ∧ digits ≠ [] ∧
    (∀ c ∈ digits, '0' ≤ c ∧ c ≤ '9') ∧
      Nat.ofDigits 10 (digits.map fun c ↦ c.toNat - '0'.toNat).reverse = n

theorem natOfDigits_eq_ofDigits (digits : List Char) : natOfDigits digits =
    Nat.ofDigits 10 (digits.map fun c ↦ c.toNat - '0'.toNat).reverse := by
  rw [Nat.ofDigits_eq_foldr, List.foldr_reverse, List.foldl_map]
  simp only [natOfDigits, digitValue, Nat.cast_id, Nat.add_comm]

theorem natOfDigits?_eq_some_iff {digits : List Char} {n : Nat} :
    natOfDigits? digits = some n ↔ digits ≠ [] ∧ (∀ c ∈ digits, '0' ≤ c ∧ c ≤ '9') ∧
      Nat.ofDigits 10 (digits.map fun c ↦ c.toNat - '0'.toNat).reverse = n := by
  have hdigits : digits.all isDigit = true ↔ ∀ c ∈ digits, '0' ≤ c ∧ c ≤ '9' := by
    simp [isDigit]
  unfold natOfDigits?
  rw [natOfDigits_eq_ofDigits, ← hdigits]
  cases digits.all isDigit <;> cases digits <;> simp

theorem parseNat?_eq_some_iff {s : String} {n : Nat} : parseNat? s = some n ↔ IsNumeral s n := by
  unfold parseNat?
  constructor
  · intro h
    split at h
    next digits hs => exact ⟨digits, .inr hs, natOfDigits?_eq_some_iff.1 h⟩
    next => exact ⟨s.toList, .inl rfl, natOfDigits?_eq_some_iff.1 h⟩
  · rintro ⟨digits, hs | hs, h⟩
    · split
      next rest hplus =>
        -- A plus sign is no digit.
        have hmem : '+' ∈ digits := by rw [← hs, hplus]; exact List.mem_cons_self
        exact absurd (h.2.1 '+' hmem).1 (by decide)
      next => rw [hs]; exact natOfDigits?_eq_some_iff.2 h
    · rw [hs]
      exact natOfDigits?_eq_some_iff.2 h

end DirectoryReconcile.Text
