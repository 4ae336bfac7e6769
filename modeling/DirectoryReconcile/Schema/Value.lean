import DirectoryReconcile.Json.Printer
import DirectoryReconcile.Scalar
import DirectoryReconcile.Text.Ascii
import DirectoryReconcile.Text.Blank
import DirectoryReconcile.Text.Integer

/-!
# Kinds of values

Every element of an attribute is read as a scalar of the attribute's kind. Texts of integers and
flags are accepted where an integer or a flag is expected, and the other way round.
-/

namespace DirectoryReconcile

inductive ValueKind where
  | str
  | int
  | bool
deriving DecidableEq, Repr, Inhabited

/-- Why an element or a value does not fit its attribute. -/
inductive ValueFault where
  | notInteger (shown : String)
  | notFlag (shown : String)
  | unexpected (kind : ValueKind) (value : Json)
  | notSingle (count : Nat)
  | refused (reason : String)
deriving DecidableEq, Repr

namespace ValueKind

def name : ValueKind → String
  | .str => "str"
  | .int => "int"
  | .bool => "bool"

def describe : ValueKind → String
  | .str => "a string"
  | .int => "an integer"
  | .bool => "a boolean"

end ValueKind

namespace ValueFault

def message : ValueFault → String
  | .notInteger shown => shown ++ " is not an integer"
  | .notFlag shown => shown ++ " is not a boolean"
  | .unexpected kind value => "expected " ++ kind.describe ++ ", got " ++ value.compact
  | .notSingle count => "expected a single value, got " ++ toString count
  | .refused reason => reason

end ValueFault

namespace ValueKind

def quoted (s : String) : String := "'" ++ s ++ "'"

/-- The flag that a word stands for, in any case of ASCII letters and between blanks. -/
def flagOfWord? (s : String) : Option Bool :=
  let word := Text.lowerAscii (Text.trim s)
  if word ∈ ["true", "yes", "on", "1"] then some true
  else if word ∈ ["false", "no", "off", "0"] then some false
  else none

/-- The text of a flag, an integer or a floating-point number. -/
def textOf (value : Json) : Except ValueFault Scalar :=
  match value with
  | .str s => .ok (.str s)
  | .int _ | .float _ => .ok (.str value.compact)
  | .bool b => .ok (.str (Scalar.bool b).display)
  | other => .error (.unexpected .str other)

def integerOf (value : Json) : Except ValueFault Scalar :=
  match value with
  | .int _ | .float _ =>
    match value.asSigned64? with
    | some n => .ok (.int n)
    | none => .error (.notInteger value.compact)
  | .str s =>
    match (Text.parseInt? (Text.trim s)).bind Json.signed64? with
    | some n => .ok (.int n)
    | none => .error (.notInteger (quoted s))
  | other => .error (.unexpected .int other)

def flagOf (value : Json) : Except ValueFault Scalar :=
  match value with
  | .bool b => .ok (.bool b)
  | .str s =>
    match flagOfWord? s with
    | some b => .ok (.bool b)
    | none => .error (.notFlag (quoted s))
  | .int n =>
    if n = 0 then .ok (.bool false)
    else if n = 1 then .ok (.bool true)
    else .error (.notFlag value.compact)
  | .float _ => .error (.notFlag value.compact)
  | other => .error (.unexpected .bool other)

/-- The scalar of this kind that an element stands for; null stands for no value. -/
def coerce (kind : ValueKind) (value : Json) : Except ValueFault Scalar :=
  if value.isNull then .ok .null
  else
    match kind with
    | .str => textOf value
    | .int => integerOf value
    | .bool => flagOf value

end ValueKind

end DirectoryReconcile
