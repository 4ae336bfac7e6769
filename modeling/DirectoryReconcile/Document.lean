import DirectoryReconcile.DesiredState

/-!
# Documents

What a task file or a configuration file says, whatever its format: plain values, lists, and tables
whose fields stand as written. Records may be given as tables or as lists of their fields.
-/

namespace DirectoryReconcile

inductive Document where
  | null
  | flag (b : Bool)
  | integer (n : Int)
  | real
  | text (s : String)
  | list (items : List Document)
  | table (fields : List (String × Document))
deriving Inhabited

/-- Where two formats differ in what they accept. -/
structure Dialect where
  /-- What may stand after the name of a choice that is written as a table. -/
  isUnit : Document → Bool
  /-- Whether a list may have more items than the record it is given for has fields. -/
  allowsSurplus : Bool

namespace Document

mutual

def ofJson : Json → Document
  | .null => .null
  | .bool b => .flag b
  | .int n => .integer n
  | .float _ => .real
  | .str s => .text s
  | .arr items => .list (ofJsonItems items)
  | .obj fields => .table (ofJsonFields fields)

def ofJsonItems : List Json → List Document
  | [] => []
  | item :: rest => ofJson item :: ofJsonItems rest

def ofJsonFields : List (String × Json) → List (String × Document)
  | [] => []
  | (key, value) :: rest => (key, ofJson value) :: ofJsonFields rest

end

def isNull : Document → Bool
  | .null => true
  | _ => false

def isEmpty : Document → Bool
  | .table fields => fields.isEmpty
  | .list items => items.isEmpty
  | _ => false

def text? : Document → Option String
  | .text s => some s
  | _ => none

def flag? : Document → Option Bool
  | .flag b => some b
  | _ => none

/-- A natural number that does not exceed a bound. -/
def natural? (greatest : Nat) : Document → Option Nat
  | .integer n => if 0 ≤ n && n ≤ greatest then some n.toNat else none
  | _ => none

def scalar? : Document → Option Scalar
  | .null => some .null
  | .flag b => some (.bool b)
  | .integer n => (Json.signed64? n).map .int
  | .text s => some (.str s)
  | _ => none

def attrValue? : Document → Option AttrValue
  | .list items => (items.mapM scalar?).map .list
  | other => other.scalar?.map .scalar

/-- Attribute values by name; the last value of a name counts. -/
def attrValues? : Document → Option (Dict AttrValue)
  | .table fields =>
    (fields.mapM fun field ↦ (attrValue? field.2).map fun value ↦ (field.1, value)).map Dict.ofList
  | _ => none

/-- One of several choices: its name, or a table with its name and nothing to go with it. -/
def choice? {α : Type} (dialect : Dialect) (ofName? : String → Option α) : Document → Option α
  | .text name => ofName? name
  | .table [(name, payload)] => if dialect.isUnit payload then ofName? name else none
  | _ => none

/-- The value of a field of a table. -/
def tableField? : Document → String → Option Document
  | .table fields, name => Dict.lookupEntry name fields
  | _, _ => none

def hasRepetition (names : List String) : Bool :=
  match names with
  | [] => false
  | name :: rest => rest.contains name || hasRepetition rest

/-- The fields of a record: from a table in which no field of the record is repeated, or from a
list in the record's order. -/
def record? (dialect : Dialect) (names : List String) : Document → Option (Dict Document)
  | .table fields =>
    let known := fields.filter fun field ↦ names.contains field.1
    if hasRepetition (known.map (·.1)) then none else some (.ofList known)
  | .list items =>
    if names.length < items.length && !dialect.allowsSurplus then none
    else some (.ofList (names.zip items))
  | _ => none

/-- A record whose tables have no other fields. -/
def closedRecord? (dialect : Dialect) (names : List String) (document : Document) :
    Option (Dict Document) :=
  match document with
  | .table fields =>
    if fields.all fun field ↦ names.contains field.1 then document.record? dialect names else none
  | _ => document.record? dialect names

/-- A field of a record, with a default for a missing one. -/
def fieldOr {α : Type} (fields : Dict Document) (name : String) (default : α)
    (decode : Document → Option α) : Option α :=
  match fields.get? name with
  | some value => decode value
  | none => some default

end Document

namespace Dialect

/-- In JSON only null says nothing, and a list must not be longer than its record. -/
def json : Dialect := ⟨Document.isNull, false⟩

/-- In TOML an empty table or list says nothing, and what a list has too many of is ignored. -/
def toml : Dialect := ⟨Document.isEmpty, true⟩

end Dialect

namespace DesiredState

/-- The desired state that a document describes; only the identity is required. -/
def ofDocument? (dialect : Dialect) (document : Document) : Option DesiredState := do
  let fields ← document.record? dialect ["identity", "attributes", "state", "dry_run"]
  let identity ← (← fields.get? "identity").attrValues?
  let attributes ← Document.fieldOr fields "attributes" ∅ Document.attrValues?
  let state ← Document.fieldOr fields "state" .present
    (Document.choice? dialect TargetState.ofName?)
  let dryRun ← Document.fieldOr fields "dry_run" false Document.flag?
  return ⟨identity, attributes, state, dryRun⟩

end DesiredState

end DirectoryReconcile
