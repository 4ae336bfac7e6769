import DirectoryReconcile.Directory.Entry
import DirectoryReconcile.Response

/-!
# Operations on the entries of one type

Each operation reads and writes the entries of a type, as the arguments of a call say, and gives a
result or a refusal. It works in place: a refusal ends it where it stands and takes back nothing.
-/

namespace DirectoryReconcile

/-- An error of the service. -/
structure Refusal where
  code : Int64
  name : String
  message : String
deriving DecidableEq, Repr

/-- The positional arguments and the options of a call. -/
structure Arguments where
  positional : List Json
  item : Dict Json

/-- A program over the entries of a type that a refusal can end. -/
abbrev Update := EStateM Refusal (List Entry)

/-- What a method does to the entries of the type it belongs to. -/
inductive Operation where
  | find
  | add
  | modify
  | remove
  | setEnabled (enabled : Bool)
  | listAdd (specs : List AttributeSpec)
  | listRemove (specs : List AttributeSpec)

namespace Refusal

def unknownCommand (method : String) : Refusal :=
  ⟨905, "CommandError", "unknown command '" ++ method ++ "'"⟩

def notFound (declaration : Declaration) (identity : List String) : Refusal :=
  ⟨4001, "NotFound", Entry.primaryKey identity ++ ": " ++ declaration.name ++ " not found"⟩

def duplicate (declaration : Declaration) (identity : List String) : Refusal :=
  ⟨4002, "DuplicateEntry",
    declaration.name ++ " with name \"" ++ Entry.primaryKey identity ++ "\" already exists"⟩

def required (key : String) : Refusal := ⟨3007, "RequirementError", "'" ++ key ++ "' is required"⟩

def unknownOption (name : String) : Refusal := ⟨3005, "OptionError", "Unknown option: " ++ name⟩

def invalidAssignment (option text : String) : Refusal :=
  ⟨3009, "ValidationError", "invalid '" ++ option ++ "': " ++ text⟩

def notContained (key text : String) : Refusal :=
  ⟨3009, "ValidationError", key ++ " does not contain '" ++ text ++ "'"⟩

def noChange : Refusal := ⟨4202, "EmptyModlist", "no modifications to be performed"⟩

def alreadyEnabled : Refusal := ⟨4204, "AlreadyActive", "This entry is already enabled"⟩

def alreadyDisabled : Refusal := ⟨4205, "AlreadyInactive", "This entry is already disabled"⟩

def withoutFlag : Refusal := ⟨905, "CommandError", "object type cannot be enabled"⟩

end Refusal

namespace Arguments

/-- The arguments that the parameters of a call hold. -/
def ofParams : Json → Arguments
  | .arr (positional :: rest) =>
    ⟨positional.asArray?.getD [], ((rest.head?).map Json.fields).getD ∅⟩
  | _ => ⟨[], ∅⟩

end Arguments

namespace Operation

variable (declaration : Declaration)

/-! ## Which operation a method is -/

/-- The attributes whose values a method adds or removes. -/
def routedBy (adding : Bool) (method : String) : List AttributeSpec :=
  declaration.attributes.filter fun spec ↦ spec.route.any fun route ↦ route.method adding = method

/-- Whether a call carries values of an attribute. -/
def carries (arguments : Arguments) (spec : AttributeSpec) : Bool :=
  match spec.route with
  | some route =>
    match route.style with
    | .keyword => arguments.item.contains route.param
    | .positional => declaration.identityAttributes.length < arguments.positional.length
  | none => false

/-- The operation of a method. Methods that share a name with those of list attributes are told
apart by the values that a call carries. -/
def ofMethod? (method : String) (arguments : Arguments) : Option Operation :=
  let methods := declaration.methods
  let adds := routedBy declaration true method
  let removes := routedBy declaration false method
  if method = methods.find then some .find
  else if method = methods.enable && declaration.enable.isSome then some (.setEnabled true)
  else if method = methods.disable && declaration.enable.isSome then some (.setEnabled false)
  else if adds.any (carries declaration arguments) then some (.listAdd adds)
  else if removes.any (carries declaration arguments) then some (.listRemove removes)
  else if method = methods.add then some .add
  else if method = methods.modify then some .modify
  else if method = methods.remove then some .remove
  else if !adds.isEmpty then some (.listAdd adds)
  else if !removes.isEmpty then some (.listRemove removes)
  else none

/-! ## Parts of the operations -/

/-- The identity in the leading positional arguments. -/
def identityOf (positional : List Json) : Except Refusal (List String) :=
  let keys := declaration.identityKeys
  match keys[positional.length]? with
  | some key => .error (.required key)
  | none => .ok ((positional.take keys.length).map Stored.text)

/-- The entry with an identity. -/
def existing (identity : List String) : Update Entry := do
  match (← get).find? fun entry ↦ entry.isNamed identity with
  | some entry => return entry
  | none => throw (.notFound declaration identity)

/-- Puts an entry in the place of the first one with its identity. -/
def replace (entry : Entry) : List Entry → List Entry
  | [] => []
  | other :: rest =>
    if other.isNamed entry.identity then entry :: rest else other :: replace entry rest

/-- Removes the first entry with an identity. -/
def discard (identity : List String) : List Entry → List Entry
  | [] => []
  | entry :: rest => if entry.isNamed identity then rest else entry :: discard identity rest

/-- Options that never name an attribute. -/
def controlKeys : List String := ["all", "raw", "rights", "no_members", "version", "del_all"]

/-- Carries out one assignment of an option. -/
def applyAssignment (option : String) (attrs : Dict Json) (value : Json) :
    Except Refusal (Dict Json) :=
  let assignment := Stored.text value
  match Text.splitFirst '=' assignment with
  | none => .error (.invalidAssignment option assignment)
  | some (key, text) =>
    if option = "addattr" then .ok (Stored.pushValues attrs key (.str text))
    else if option = "delattr" then
      let dropped := Stored.dropValues attrs key (.str text)
      if Stored.countOf dropped key = Stored.countOf attrs key then .error (.notContained key text)
      else .ok dropped
    else .ok (attrs.insert key (.arr [.str text]))

/-- Carries out one option of an addition or a modification. -/
def applyOption (attrs : Dict Json) (option : String × Json) : Except Refusal (Dict Json) :=
  let (name, value) := option
  if name ∈ controlKeys then .ok attrs
  else if name ∈ ["addattr", "delattr", "setattr"] then
    (AttributeSpec.elements value).foldlM (applyAssignment name) attrs
  else
    match declaration.attribute? name with
    | none => .error (.unknownOption name)
    | some spec =>
      let value := Stored.unwrap value
      if value.isNull then .ok (attrs.erase spec.responseKey)
      else .ok (attrs.insert spec.responseKey (Stored.asList value))

def applyOptions (attrs : Dict Json) (item : Dict Json) : Except Refusal (Dict Json) :=
  item.entries.foldlM (applyOption declaration) attrs

/-- Equality of stored attributes as values. -/
def sameAttrs (a b : Dict Json) : Bool := (Json.ofDict a).alike (.ofDict b)

/-- A result that describes what was done to an entry. -/
def report (verb : String) (result value : Json) (identity : List String) : Json :=
  .ofFields [("result", result), ("value", value),
    ("summary", .str (verb ++ " " ++ declaration.name ++ " \"" ++ Entry.primaryKey identity ++ "\""))]

def deletion (identity : List String) : Json :=
  report declaration "Deleted" (.ofFields [("failed", .arr [])])
    (.arr [.str (Entry.primaryKey identity)]) identity

/-- The values that a call carries for a routed attribute. -/
def routedValues? (arguments : Arguments) (identityLength : Nat) (spec : AttributeSpec) :
    Option Json := do
  let route ← spec.route
  let raw ←
    match route.style with
    | .keyword => arguments.item.get? route.param
    | .positional => arguments.positional[identityLength]?
  return Stored.unwrap raw

/-- Changes the values of each routed attribute that a call carries, and counts the values added or
removed. -/
def changeLists (change : Dict Json → String → Json → Dict Json) (arguments : Arguments)
    (identityLength : Nat) (specs : List AttributeSpec) (attrs : Dict Json) : Dict Json × Nat :=
  specs.foldl (fun (attrs, completed) spec ↦
    match routedValues? arguments identityLength spec with
    | none => (attrs, completed)
    | some values =>
      let changed := change attrs spec.responseKey values
      let before := Stored.countOf attrs spec.responseKey
      let after := Stored.countOf changed spec.responseKey
      (changed, completed + (after - before) + (before - after))) (attrs, 0)

def listReport (completed : Nat) (entry : Entry) : Json :=
  .ofFields [("completed", .int completed), ("failed", .obj []),
    ("result", entry.render declaration)]

/-! ## The operations -/

/-- What an identity attribute of the entries found must contain. -/
def criteria (arguments : Arguments) : List AttributeSpec → List Json → List (Option String)
  | [], _ => []
  | spec :: rest, positional =>
    if spec.findKeyword then
      (arguments.item.get? spec.name).map Stored.text :: criteria arguments rest positional
    else positional.head?.map Stored.text :: criteria arguments rest positional.tail

def meets : List (Option String) → List String → Bool
  | [], _ => true
  | none :: rest, identity => meets rest identity.tail
  | some _ :: _, [] => false
  | some wanted :: rest, text :: identity =>
    Text.containsText (Text.lowerAscii text) (Text.lowerAscii wanted) && meets rest identity

/-- The entries whose identity contains the texts asked for, ignoring the case of ASCII letters. -/
def search (entries : List Entry) (arguments : Arguments) : Json :=
  let wanted := criteria arguments declaration.identityAttributes arguments.positional
  let found := (entries.filter fun entry ↦ meets wanted entry.identity).map (·.render declaration)
  .ofFields [("count", .int found.length), ("truncated", .bool false),
    ("summary", .str (toString found.length ++ " " ++ declaration.name ++ " matched")),
    ("result", .arr found)]

def create (arguments : Arguments) : Update Json := do
  let identity ← liftExcept (identityOf declaration arguments.positional)
  let entries ← get
  if entries.any fun entry ↦ entry.isNamed identity then
    throw (.duplicate declaration identity)
  let entry := Entry.named declaration identity
  let attrs ← liftExcept (applyOptions declaration entry.attrs arguments.item)
  let entry := { entry with attrs := attrs }
  set (entries ++ [entry])
  let key := Json.str (Entry.primaryKey identity)
  return report declaration "Added" (entry.render declaration) key identity

def change (arguments : Arguments) : Update Json := do
  let identity ← liftExcept (identityOf declaration arguments.positional)
  let entry ← existing declaration identity
  let attrs ← liftExcept (applyOptions declaration entry.attrs arguments.item)
  if sameAttrs attrs entry.attrs then throw .noChange
  let entry := { entry with attrs := attrs }
  set (replace entry (← get))
  let key := Json.str (Entry.primaryKey identity)
  return report declaration "Modified" (entry.render declaration) key identity

def delete (arguments : Arguments) : Update Json := do
  let identity ← liftExcept (identityOf declaration arguments.positional)
  let entry ← existing declaration identity
  set (discard entry.identity (← get))
  return deletion declaration identity

/-- Sets the flag of an entry that has it otherwise. -/
def setFlag (enabled : Bool) (arguments : Arguments) : Update Json := do
  let identity ← liftExcept (identityOf declaration arguments.positional)
  let entry ← existing declaration identity
  match declaration.enable with
  | none => throw .withoutFlag
  | some flag =>
    let current := (declaration.isEnabled entry.attrs).toOption.getD true
    if current = enabled then throw (if enabled then .alreadyEnabled else .alreadyDisabled)
    let key := ((declaration.attribute? flag.attr).map AttributeSpec.responseKey).getD flag.attr
    let stored := Json.arr [.bool (flag.storedValue enabled)]
    set (replace { entry with attrs := entry.attrs.insert key stored } (← get))
    let verb := if enabled then "Enabled" else "Disabled"
    return report declaration verb (.bool true) (.str (Entry.primaryKey identity)) identity

/-- Adds list values. The first ones create an entry of a type without an add method of its own. -/
def addValues (specs : List AttributeSpec) (arguments : Arguments) : Update Json := do
  let identity ← liftExcept (identityOf declaration arguments.positional)
  let entries ← get
  if declaration.creation = .implicit && !entries.any fun entry ↦ entry.isNamed identity then
    set (entries ++ [Entry.named declaration identity])
  let entry ← existing declaration identity
  let (attrs, completed) :=
    changeLists Stored.pushValues arguments identity.length specs entry.attrs
  let entry := { entry with attrs := attrs }
  set (replace entry (← get))
  return listReport declaration completed entry

/-- Whether an entry of a type without an add method holds no list values any more. -/
def isEmptied (attrs : Dict Json) : Bool :=
  declaration.creation = .implicit &&
    !(declaration.attributes.filter (·.route.isSome)).any fun spec ↦
      attrs.contains spec.responseKey

/-- Removes list values, and the entry with the last ones if the first ones created it. -/
def removeValues (specs : List AttributeSpec) (arguments : Arguments) : Update Json := do
  let identity ← liftExcept (identityOf declaration arguments.positional)
  let entry ← existing declaration identity
  let (attrs, completed) :=
    changeLists Stored.dropValues arguments identity.length specs entry.attrs
  let entry := { entry with attrs := attrs }
  set (replace entry (← get))
  if isEmptied declaration attrs then
    set (discard entry.identity (← get))
    return deletion declaration identity
  return listReport declaration completed entry

/-- Carries out an operation. -/
def execute (arguments : Arguments) : Operation → Update Json
  | .find => return search declaration (← get) arguments
  | .add => create declaration arguments
  | .modify => change declaration arguments
  | .remove => delete declaration arguments
  | .setEnabled enabled => setFlag declaration enabled arguments
  | .listAdd specs => addValues declaration specs arguments
  | .listRemove specs => removeValues declaration specs arguments

end Operation

end DirectoryReconcile
