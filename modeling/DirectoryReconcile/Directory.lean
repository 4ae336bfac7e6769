import DirectoryReconcile.Directory.Operation
import DirectoryReconcile.Schema.Registry

/-!
# A directory in memory

A directory keeps the entries of each object type, answers calls the way the service does, and
remembers the calls it received. Failures can be injected for single methods.
-/

namespace DirectoryReconcile

/-- A failure that every call of a method meets. -/
inductive InjectedFault where
  | fault (code : Int64) (message : String)
  | transport (message : String)
deriving DecidableEq, Repr

structure ReceivedCall where
  method : String
  params : Json
deriving DecidableEq

structure Directory where
  registry : Registry
  /-- The entries of each type in the order they were stored. -/
  objects : Dict (List Entry)
  faults : Dict InjectedFault
  received : List ReceivedCall

namespace ReceivedCall

def positional (call : ReceivedCall) : List Json := (Arguments.ofParams call.params).positional

def item? (call : ReceivedCall) : Option Json :=
  match call.params with
  | .arr (_ :: .obj fields :: _) => some (.obj fields)
  | _ => none

/-- Whether the method is not a look-up. -/
def isMutating (call : ReceivedCall) : Bool :=
  !Text.endsWith call.method "_find" && !Text.endsWith call.method "_show"

end ReceivedCall

namespace Directory

def ofRegistry (registry : Registry) : Directory := ⟨registry, ∅, ∅, []⟩

variable (directory : Directory)

def entriesOf (type : String) : List Entry := (directory.objects.get? type).getD []

def withEntries (type : String) (entries : List Entry) : Directory :=
  { directory with objects := directory.objects.insert type entries }

theorem entriesOf_withEntries (directory : Directory) (type other : String) (entries : List Entry) :
    (directory.withEntries type entries).entriesOf other =
      if type = other then entries else directory.entriesOf other := by
  unfold entriesOf
  rw [withEntries, Dict.get?_insert]
  split <;> rfl

/-! ## Seeding and inspection -/

/-- The first value of an identity attribute in a seed, as a text. -/
def seedIdentity (fields : Dict Json) (spec : AttributeSpec) : Except Failure String :=
  match (fields.get? spec.name).or (fields.get? spec.responseKey) with
  | none => .error (.validation spec.name .identityMissing)
  | some raw =>
    match Stored.unwrap raw with
    | .arr items => .ok (Stored.text (items.headD .null))
    | value => .ok (Stored.text value)

/-- Stores a field of a seed under its response key. -/
def seedField (declaration : Declaration) (attrs : Dict Json) (field : String × Json) : Dict Json :=
  let key := ((declaration.attribute? field.1).map AttributeSpec.responseKey).getD field.1
  attrs.insert key (Stored.asList (Stored.unwrap field.2))

def seedEntry (declaration : Declaration) (fields : Dict Json) : Except Failure Entry := do
  let identity ← declaration.identityAttributes.mapM (seedIdentity fields)
  let entry := Entry.named declaration identity
  return { entry with attrs := fields.entries.foldl (seedField declaration) entry.attrs }

/-- Stores an object, in place of one with the same identity. -/
def seed (type : String) (object : Json) : Except Failure Directory := do
  let schema ← directory.registry.get type
  match object with
  | .obj _ =>
    let entry ← seedEntry schema.toDeclaration object.fields
    let others := (directory.entriesOf type).filter fun other ↦ !other.isNamed entry.identity
    return directory.withEntries type (others ++ [entry])
  | _ => throw (.validation type (.stated "seed object must be a map"))

/-- The stored attributes of an object. -/
def object? (type : String) (identity : List String) : Option (Dict Json) :=
  ((directory.entriesOf type).find? fun entry ↦ entry.isNamed identity).map (·.attrs)

def count (type : String) : Nat := (directory.entriesOf type).length

/-! ## Faults -/

def inject (method : String) (fault : InjectedFault) : Directory :=
  { directory with faults := directory.faults.insert method fault }

def clearFaults : Directory := { directory with faults := ∅ }

def clearReceived : Directory := { directory with received := [] }

/-! ## Calls -/

/-- The body of a response with a result. -/
def resultBody (result : Json) : Json :=
  .ofFields [("result", result), ("error", .null), ("id", .int 0)]

/-- The body of a response with an error. -/
def refusalBody (refusal : Refusal) : Json :=
  .ofFields [("result", .null), ("id", .int 0),
    ("error", .ofFields [("code", .int refusal.code.toInt), ("message", .str refusal.message),
      ("name", .str refusal.name)])]

/-- The type and the operation that a method belongs to. -/
def dispatch? (method : String) (arguments : Arguments) : Option (ObjectSchema × Operation) :=
  directory.registry.schemas.values.findSome? fun schema ↦
    (Operation.ofMethod? schema.toDeclaration method arguments).map fun operation ↦
      (schema, operation)

/-- Carries out a call. A refusal leaves the entries as the operation left them. -/
def handle (method : String) (params : Json) : EStateM.Result Refusal Directory Json :=
  let arguments := Arguments.ofParams params
  match directory.dispatch? method arguments with
  | none => .error (.unknownCommand method) directory
  | some (schema, operation) =>
    let entries := directory.entriesOf schema.name
    match (operation.execute schema.toDeclaration arguments).run entries with
    | .ok result entries => .ok result (directory.withEntries schema.name entries)
    | .error refusal entries => .error refusal (directory.withEntries schema.name entries)

def receive (method : String) (params : Json) : Directory :=
  { directory with received := directory.received ++ [⟨method, params⟩] }

/-- Answers a call. -/
def post (method : String) (params : Json) : Reply × Directory :=
  let directory := directory.receive method params
  match directory.faults.get? method with
  | some (.transport message) => (.error (.transport method message none), directory)
  | some (.fault code message) =>
    (.ok (refusalBody ⟨code, "InjectedFault", message⟩), directory)
  | none =>
    match directory.handle method params with
    | .ok result directory => (.ok (resultBody result), directory)
    | .error refusal directory => (.ok (refusalBody refusal), directory)

/-- The directory as a transport. -/
def transport : Transport Directory := post

end Directory

end DirectoryReconcile
