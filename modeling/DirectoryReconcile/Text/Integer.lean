import DirectoryReconcile.Text.Pieces

/-!
# Integers as text

Decimal digits with an optional sign in front, and nothing else.
-/

namespace DirectoryReconcile.Text

def isDigit (c : Char) : Bool := '0' ≤ c && c ≤ '9'

def digitValue (c : Char) : Nat := c.toNat - '0'.toNat

def natOfDigits (digits : List Char) : Nat := digits.foldl (fun n c ↦ 10 * n + digitValue c) 0

/-- The number of one or more digits. -/
def natOfDigits? (digits : List Char) : Option Nat :=
  if digits.isEmpty || !digits.all isDigit then none else some (natOfDigits digits)

/-- A natural number, with an optional plus sign. -/
def parseNat? (s : String) : Option Nat :=
  match s.toList with
  | '+' :: digits => natOfDigits? digits
  | digits => natOfDigits? digits

/-- An integer, with an optional sign. -/
def parseInt? (s : String) : Option Int :=
  match s.toList with
  | '-' :: digits => (natOfDigits? digits).map fun n ↦ -(n : Int)
  | _ => (parseNat? s).map fun n ↦ (n : Int)

end DirectoryReconcile.Text
