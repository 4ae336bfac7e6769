import DirectoryReconcile.Binary64

/-!
# The shortest decimal text of a number

The fewest digits that read back as the same number, and of those the nearest ones. Exponents from
-5 to 15 are written positionally, always with a point.
-/

namespace DirectoryReconcile.Binary64

/-- Comparison of two quotients of natural numbers. -/
def quotientLt (a b : Nat × Nat) : Bool := a.1 * b.2 < b.1 * a.2

def quotientLe (a b : Nat × Nat) : Bool := a.1 * b.2 ≤ b.1 * a.2

/-- `digits · 10 ^ power` as a quotient. -/
def decimalQuotient (digits : Nat) (power : Int) : Nat × Nat :=
  (digits * Nat.pow 10 power.toNat, Nat.pow 10 (-power).toNat)

/-- Whether a quotient rounds to this positive number: it lies between the middles of the gaps to
its neighbours, which count themselves when the significand is even. -/
def roundsTo (x : Binary64) (q : Nat × Nat) : Bool :=
  let m := x.significand
  let narrow := m = Nat.pow 2 52 && leastExponent < x.exponent
  let low := scale (if narrow then 4 * m - 1 else 4 * m - 2) 4 (-x.exponent)
  let high := scale (4 * m + 2) 4 (-x.exponent)
  if m % 2 = 0 then quotientLe low q && quotientLe q high else quotientLt low q && quotientLt q high

/-- The power of ten of the leading digit of a positive quotient. -/
def leadingPower (numerator denominator : Nat) : Int :=
  if denominator ≤ numerator then ((Nat.toDigits 10 (numerator / denominator)).length : Int) - 1
  else
    let steps := (List.range 400).find? (fun j ↦ denominator ≤ numerator * Nat.pow 10 j)
    Int.negOfNat (steps.getD 0)

/-- The digits on the grid `10 ^ power` that are a neighbour of the number and read back as it; of
two such the nearer one. -/
def neighbour? (x : Binary64) (power : Int) : Option Nat :=
  let (n, d) := x.magnitude
  let (gn, gd) := decimalQuotient 1 power
  let below := (n * gd) / (d * gn)
  let remainder := (n * gd) % (d * gn)
  let lowFits := roundsTo x (decimalQuotient below power)
  let highFits := roundsTo x (decimalQuotient (below + 1) power)
  if lowFits && highFits then
    if 2 * remainder < d * gn then some below
    else if 2 * remainder = d * gn then some (below + below % 2)
    else some (below + 1)
  else if lowFits then some below
  else if highFits then some (below + 1)
  else none

/-- The shortest digits of a positive number and the power of ten of the last one. -/
def shortest (x : Binary64) : Nat × Int :=
  let (n, d) := x.magnitude
  let lead := leadingPower n d
  let found := (List.range 17).findSome? fun (i : Nat) ↦
    let power := lead - i
    (neighbour? x power).map fun digits ↦ (digits, power)
  found.getD (0, 0)

/-- How a number is written: which powers of the leading digit are positional. -/
structure DecimalFormat where
  leastPositional : Int
  positionalBound : Int
  exponentMark : String
  positiveSign : String

/-- Numbers from `10 ^ -5` up to `10 ^ 16` are positional; beyond, `e` and a signed exponent. -/
def decimalFormat : DecimalFormat := ⟨-5, 16, "e", "+"⟩

def stripZeros (digits : List Char) : List Char := (digits.reverse.dropWhile (· = '0')).reverse

def zeros (n : Nat) : List Char := List.replicate n '0'

/-- The text of significant digits whose first stands at the power `lead` of ten. -/
def DecimalFormat.write (format : DecimalFormat) (digits : List Char) (lead : Int) : List Char :=
  if format.leastPositional ≤ lead && lead < format.positionalBound then
    if lead < 0 then '0' :: '.' :: zeros (-lead - 1).toNat ++ digits
    else
      let whole := lead.toNat + 1
      if digits.length ≤ whole then digits ++ zeros (whole - digits.length) ++ ['.', '0']
      else digits.take whole ++ '.' :: digits.drop whole
  else
    let mantissa :=
      match digits with
      | [] => []
      | [digit] => [digit]
      | digit :: rest => digit :: '.' :: rest
    let sign := if lead < 0 then "-" else format.positiveSign
    mantissa ++ format.exponentMark.toList ++ sign.toList ++ Nat.toDigits 10 lead.natAbs

/-- The text of a number. -/
def toDecimal (x : Binary64) : String :=
  let body :=
    if x.isZero then ['0', '.', '0']
    else
      let (digits, power) := shortest x
      let written := Nat.toDigits 10 digits
      decimalFormat.write (stripZeros written) (power + written.length - 1)
  String.ofList (if x.negative then '-' :: body else body)

end DirectoryReconcile.Binary64
