import DirectoryReconcile.Binary64
import DirectoryReconcile.Text.Hex
import DirectoryReconcile.Text.Integer

/-!
# TOML numbers

Integers in four bases and floating-point numbers. Underscores may stand between digits. Integers
have at most 128 bits, and a floating-point number must not be too large.
-/

namespace DirectoryReconcile.Toml

/-- The digits of a group, with single underscores between them left out. -/
def digits? (isDigit : Char → Bool) : List Char → Option (List Char)
  | [] => none
  | [c] => if isDigit c then some [c] else none
  | c :: '_' :: rest => if isDigit c then (digits? isDigit rest).map (c :: ·) else none
  | c :: rest => if isDigit c then (digits? isDigit rest).map (c :: ·) else none

/-- Splits off a sign; the number is negative after a minus. -/
def signed : List Char → Bool × List Char
  | '-' :: rest => (true, rest)
  | '+' :: rest => (false, rest)
  | cs => (false, cs)

def isDigitOf (base : Nat) (c : Char) : Bool := (Text.hexValue? c).any (· < base)

def natInBase (base : Nat) (digits : List Char) : Nat :=
  digits.foldl (fun n c ↦ base * n + (Text.hexValue? c).getD 0) 0

def natInBase? (base : Nat) (cs : List Char) : Option Nat :=
  (digits? (isDigitOf base) cs).map (natInBase base)

/-- Decimal digits without leading zeros. -/
def decimal? (cs : List Char) : Option (List Char) :=
  match digits? Text.isDigit cs with
  | some ('0' :: _ :: _) => none
  | digits => digits

def fitsInteger (n : Int) : Bool := -Int.pow 2 127 ≤ n && n < Int.pow 2 128

def integer? (token : List Char) : Option Int := do
  let n ←
    match token with
    | '0' :: 'x' :: rest => (natInBase? 16 rest).map fun n ↦ (n : Int)
    | '0' :: 'o' :: rest => (natInBase? 8 rest).map fun n ↦ (n : Int)
    | '0' :: 'b' :: rest => (natInBase? 2 rest).map fun n ↦ (n : Int)
    | _ =>
      let (negative, rest) := signed token
      (decimal? rest).map fun digits ↦
        let n : Int := Text.natOfDigits digits
        if negative then -n else n
  if fitsInteger n then some n else none

/-- Whether a number with these digits and this power of ten is small enough. -/
def isFinite (digits : List Char) (power : Int) : Bool :=
  let significant := digits.dropWhile (· = '0')
  let order : Int := significant.length + power
  significant.isEmpty || order < 300 ||
    (order < 320 && (Binary64.ofDecimal? false (Text.natOfDigits significant) power).isSome)

/-- The exponent of a number. -/
def exponent? (cs : List Char) : Option Int :=
  let (negative, rest) := signed cs
  (digits? Text.isDigit rest).map fun digits ↦
    let n : Int := Text.natOfDigits digits
    if negative then -n else n

def isExponentMark (c : Char) : Bool := c = 'e' || c = 'E'

/-- Whether a token is a floating-point number: it has a fraction or an exponent, or is one of the
names of infinity and of no number. -/
def isReal (token : List Char) : Bool :=
  let (_, cs) := signed token
  if cs = ['i', 'n', 'f'] || cs = ['n', 'a', 'n'] then true
  else
    let mantissa := cs.takeWhile fun c ↦ !isExponentMark c
    let exponent :=
      match cs.dropWhile fun c ↦ !isExponentMark c with
      | [] => some 0
      | _ :: rest => exponent? rest
    let whole := mantissa.takeWhile (· ≠ '.')
    let fraction :=
      match mantissa.dropWhile (· ≠ '.') with
      | [] => some []
      | _ :: rest => digits? Text.isDigit rest
    let isWhole := mantissa.length = cs.length && whole.length = mantissa.length
    match decimal? whole, fraction, exponent with
    | some whole, some fraction, some power =>
      !isWhole && isFinite (whole ++ fraction) (power - fraction.length)
    | _, _, _ => false

end DirectoryReconcile.Toml
