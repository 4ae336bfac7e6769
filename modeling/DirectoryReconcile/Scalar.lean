import DirectoryReconcile.Json

/-!
# Attribute values

A scalar is unset, a flag, an integer of 64 bits or a text; an attribute value is one scalar or a
list of them. Scalars are ordered by kind and then by value, and read back from their JSON form.
-/

namespace DirectoryReconcile

inductive Scalar where
  | null
  | bool (b : Bool)
  | int (n : Int64)
  | str (s : String)
deriving DecidableEq, Repr, Inhabited

namespace Scalar

def precedes : Scalar → Scalar → Bool
  | .null, .null => false
  | .null, _ => true
  | .bool a, .bool b => !a && b
  | .bool _, .int _ => true
  | .bool _, .str _ => true
  | .int a, .int b => a < b
  | .int _, .str _ => true
  | .str a, .str b => a < b
  | _, _ => false

instance : LT Scalar := ⟨fun a b ↦ a.precedes b = true⟩

instance : DecidableLT Scalar := fun a b ↦ inferInstanceAs (Decidable (a.precedes b = true))

def isNull : Scalar → Bool
  | .null => true
  | _ => false

def asString? : Scalar → Option String
  | .str s => some s
  | _ => none

def toJson : Scalar → Json
  | .null => .null
  | .bool b => .bool b
  | .int n => .int n.toInt
  | .str s => .str s

/-- The scalar of a JSON value; floating-point numbers, other integers, arrays and objects have
none. -/
def ofJson? : Json → Option Scalar
  | .null => some .null
  | .bool b => some (.bool b)
  | .int n => (Json.signed64? n).map .int
  | .str s => some (.str s)
  | _ => none

/-- The text of a scalar after the equals sign of an assignment. -/
def display : Scalar → String
  | .null => ""
  | .bool b => if b then "TRUE" else "FALSE"
  | .int n => toString n.toInt
  | .str s => s

theorem signed64?_toInt (n : Int64) : Json.signed64? n.toInt = some n := by
  rw [Json.signed64?, if_pos ⟨n.le_toInt, n.toInt_lt⟩, Int64.ofInt_toInt]

@[simp] theorem ofJson?_toJson (s : Scalar) : ofJson? s.toJson = some s := by
  cases s <;> simp [toJson, ofJson?, signed64?_toInt]

end Scalar

inductive AttrValue where
  | scalar (value : Scalar)
  | list (values : List Scalar)
deriving DecidableEq, Repr, Inhabited

namespace AttrValue

def isList : AttrValue → Bool
  | .scalar _ => false
  | .list _ => true

/-- The values of a list; a scalar counts as a list of one. -/
def values : AttrValue → List Scalar
  | .scalar value => [value]
  | .list values => values

def toJson : AttrValue → Json
  | .scalar value => value.toJson
  | .list values => .arr (values.map Scalar.toJson)

def ofJson? : Json → Option AttrValue
  | .arr items => (items.mapM Scalar.ofJson?).map .list
  | other => (Scalar.ofJson? other).map .scalar

/-- Values by name as an object. -/
def dictToJson (values : Dict AttrValue) : Json := .ofDict (values.mapValues toJson)

end AttrValue

/-- Values of the identity attributes by attribute name. -/
abbrev Identity := Dict AttrValue

/-- An object as the service reports it; one without fields does not exist. -/
abbrev RemoteObject := Dict Json

end DirectoryReconcile
