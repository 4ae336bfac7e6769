/-!
# Finite binary floating-point numbers

Numbers `± significand · 2 ^ exponent` with at most 53 significant bits and the exponent range of
the 64-bit format, kept as exact integers. Every operation rounds the exact result to the nearest
number, a half to the even significand.
-/

namespace DirectoryReconcile

structure Binary64 where
  negative : Bool
  significand : Nat
  exponent : Int
deriving DecidableEq, Repr, Inhabited

namespace Binary64

def significandBits : Nat := 53

def leastExponent : Int := -1074

def greatestExponent : Int := 971

def zero (negative : Bool) : Binary64 := ⟨negative, 0, leastExponent⟩

def isZero (x : Binary64) : Bool := x.significand = 0

/-- Equality of the numbers; the two zeros are equal. -/
def sameNumber (x y : Binary64) : Bool := x = y || (x.isZero && y.isZero)

/-- `numerator / denominator` times `2 ^ (-shift)`, as a quotient of natural numbers. -/
def scale (numerator denominator : Nat) (shift : Int) : Nat × Nat :=
  (numerator * Nat.pow 2 (-shift).toNat, denominator * Nat.pow 2 shift.toNat)

/-- The quotient rounded to the nearest natural number, a half to the even one. -/
def roundHalfEven (numerator denominator : Nat) : Nat :=
  let quotient := numerator / denominator
  let remainder := numerator % denominator
  if 2 * remainder < denominator then quotient
  else if 2 * remainder = denominator then quotient + quotient % 2
  else quotient + 1

/-- The exponent at which a positive quotient has 53 significant bits, or the least one. -/
def exponentOf (numerator denominator : Nat) : Int :=
  let guess : Int := (Nat.log2 numerator : Int) - Nat.log2 denominator - 52
  let (n, d) := scale numerator denominator guess
  max leastExponent (if n / d < Nat.pow 2 52 then guess - 1 else guess)

/-- The nearest number to a quotient, or nothing when it lies beyond the greatest one. -/
def ofQuotient? (negative : Bool) (numerator denominator : Nat) : Option Binary64 :=
  if numerator = 0 then some (zero negative)
  else
    let exponent := exponentOf numerator denominator
    let (n, d) := scale numerator denominator exponent
    let rounded := roundHalfEven n d
    let number : Binary64 :=
      if rounded = Nat.pow 2 significandBits then ⟨negative, Nat.pow 2 52, exponent + 1⟩
      else ⟨negative, rounded, exponent⟩
    if number.exponent ≤ greatestExponent then some number else none

/-- The absolute value as a quotient of natural numbers. -/
def magnitude (x : Binary64) : Nat × Nat := scale x.significand 1 (-x.exponent)

def ofNat? (n : Nat) : Option Binary64 := ofQuotient? false n 1

def mul? (x y : Binary64) : Option Binary64 :=
  let (a, b) := x.magnitude
  let (c, d) := y.magnitude
  ofQuotient? (x.negative != y.negative) (a * c) (b * d)

/-- Division by a number other than zero. -/
def div? (x y : Binary64) : Option Binary64 :=
  let (a, b) := x.magnitude
  let (c, d) := y.magnitude
  ofQuotient? (x.negative != y.negative) (a * d) (b * c)

def negate (x : Binary64) : Binary64 := { x with negative := !x.negative }

/-- The number nearest to `digits · 10 ^ power`. -/
def ofDecimal? (negative : Bool) (digits : Nat) (power : Int) : Option Binary64 :=
  ofQuotient? negative (digits * Nat.pow 10 power.toNat) (Nat.pow 10 (-power).toNat)

end Binary64

end DirectoryReconcile
