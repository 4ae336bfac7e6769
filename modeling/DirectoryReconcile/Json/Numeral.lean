import DirectoryReconcile.Json
import DirectoryReconcile.Text.Integer

/-!
# JSON numerals

Integers from `-2 ^ 63` to `2 ^ 64 - 1` are exact. Every other numeral, and `-0`, is a
floating-point number: its first digits, as many as fit in 64 bits, are rounded to a number, which
is then multiplied or divided by the number nearest to the power of ten.
-/

namespace DirectoryReconcile.Json.Numeral

def digitsBound : Nat := Nat.pow 2 64

def powerBound : Int := 308

/-- Appends digits to a number as long as it stays below the bound; the digits left over follow. -/
def appendDigits (n : Nat) : List Char → Nat × List Char
  | [] => (n, [])
  | c :: rest =>
    if 10 * n + Text.digitValue c < digitsBound then appendDigits (10 * n + Text.digitValue c) rest
    else (n, c :: rest)

/-- Multiplies or divides by a power of ten in steps of at most `10 ^ 308`. -/
def scaleByTen (x : Binary64) (power : Int) : Option Binary64 :=
  if 0 ≤ power then
    if power ≤ powerBound then do x.mul? (← Binary64.ofDecimal? false 1 power)
    else if x.isZero then some x
    else none
  else if -powerBound ≤ power then do x.div? (← Binary64.ofDecimal? false 1 (-power))
  else if x.isZero then some x
  else do
    let smaller ← x.div? (← Binary64.ofDecimal? false 1 powerBound)
    scaleByTen smaller (power + powerBound)
termination_by power.natAbs
decreasing_by simp only [powerBound] at *; omega

/-- The parts of a numeral: sign, digits before and after the point, and the signed exponent. -/
structure Parts where
  negative : Bool
  whole : List Char
  fraction : Option (List Char)
  exponent : Option (Bool × List Char)

/-- The floating-point number of a numeral; nothing when it is too large. -/
def Parts.float? (parts : Parts) : Option Binary64 := do
  let (leading, left) := appendDigits 0 parts.whole
  let fraction := parts.fraction.getD []
  let (significand, dropped) := appendDigits leading fraction
  let power : Int := left.length - (fraction.length - dropped.length : Nat)
  let start ← Binary64.ofNat? significand
  let (negativePower, digits) := parts.exponent.getD (false, [])
  let shift : Int := Text.natOfDigits digits
  let result ←
    if Int.pow 2 31 ≤ shift then
      if significand = 0 || negativePower then some (Binary64.zero false) else none
    else scaleByTen start (if negativePower then power - shift else power + shift)
  return if parts.negative then result.negate else result

def Parts.value? (parts : Parts) : Option Json :=
  let n := Text.natOfDigits parts.whole
  if parts.fraction.isNone && parts.exponent.isNone &&
      (if parts.negative then 0 < n && n ≤ Nat.pow 2 63 else n < digitsBound) then
    some (.int (if parts.negative then -n else n))
  else parts.float?.map .float

/-- Digits at the start of a text, at least one. -/
def digits? (cs : List Char) : Option (List Char × List Char) :=
  match cs.takeWhile Text.isDigit with
  | [] => none
  | digits => some (digits, cs.dropWhile Text.isDigit)

/-- Reads a numeral at the start of a text: no leading zeros, a digit on both sides of a point. -/
def read? (cs : List Char) : Option (Json × List Char) := do
  let (negative, cs) :=
    match cs with
    | '-' :: rest => (true, rest)
    | cs => (false, cs)
  let (whole, cs) ← digits? cs
  if whole.head? = some '0' && 1 < whole.length then none
  else
    let (fraction, cs) ←
      match cs with
      | '.' :: rest => (digits? rest).map fun (digits, rest) ↦ (some digits, rest)
      | cs => some (none, cs)
    let (exponent, cs) ←
      match cs with
      | c :: rest =>
        if c = 'e' || c = 'E' then
          let (negativePower, rest) :=
            match rest with
            | '+' :: rest => (false, rest)
            | '-' :: rest => (true, rest)
            | rest => (false, rest)
          (digits? rest).map fun (digits, rest) ↦ (some (negativePower, digits), rest)
        else some (none, c :: rest)
      | [] => some (none, [])
    let value ← Parts.value? ⟨negative, whole, fraction, exponent⟩
    return (value, cs)

end DirectoryReconcile.Json.Numeral
