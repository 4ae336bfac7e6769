import DirectoryReconcile.Ascending
import DirectoryReconcile.DesiredState

/-!
# Differences

What has to change for an object to be as desired. Both sides are read through the declaration
first; lists are then compared as sets and scalars by value. Every list of a change set is in
ascending order.
-/

namespace DirectoryReconcile

/-- Canonical values by attribute name. -/
abbrev Canonical := Dict AttrValue

structure ChangeSet where
  /-- Scalars to assign; null clears an attribute. -/
  scalars : Dict Scalar
  listAdds : Dict (List Scalar)
  listRemoves : Dict (List Scalar)
deriving DecidableEq

namespace ChangeSet

def isEmpty (changes : ChangeSet) : Bool :=
  changes.scalars.isEmpty && changes.listAdds.isEmpty && changes.listRemoves.isEmpty

end ChangeSet

namespace Canonical

/-- The values of an attribute, none when it is missing. -/
def valuesOf (view : Canonical) (name : String) : List Scalar :=
  ((view.get? name).map AttrValue.values).getD []

/-- The scalar of an attribute, null when it is missing or a list. -/
def scalarOf (view : Canonical) (name : String) : Scalar :=
  match view.get? name with
  | some (.scalar value) => value
  | _ => .null

end Canonical

namespace Difference

/-- The values of a list that pass, in ascending order, unless there are none. -/
def selected (keep : Scalar → Bool) (values : List Scalar) : Option (List Scalar) :=
  match Ascending.ofList (values.filter keep) with
  | [] => none
  | kept => some kept

/-- Requested list values that the object lacks. -/
def missing (current wanted : Canonical) : Dict (List Scalar) :=
  wanted.filterMap fun name value ↦
    match value with
    | .list values => selected (fun v ↦ !(current.valuesOf name).contains v) values
    | .scalar _ => none

/-- Requested scalars that the object has otherwise. -/
def assigned (current wanted : Canonical) : Dict Scalar :=
  wanted.filterMap fun name value ↦
    match value with
    | .list _ => none
    | .scalar value => if current.scalarOf name = value then none else some value

/-- List values of the object that are not requested. -/
def surplus (current wanted : Canonical) : Dict (List Scalar) :=
  current.filterMap fun name value ↦
    match value with
    | .list values => selected (fun v ↦ !(wanted.valuesOf name).contains v) values
    | .scalar _ => none

/-- Scalars of the object that are not requested, to be cleared. -/
def cleared (current wanted : Canonical) : Dict Scalar :=
  current.filterMap fun name value ↦
    match value with
    | .list _ => none
    | .scalar value => if value.isNull || wanted.contains name then none else some .null

/-- Requested list values that the object has. -/
def shared (current wanted : Canonical) : Dict (List Scalar) :=
  wanted.filterMap fun name value ↦
    match value with
    | .list values => selected (fun v ↦ (current.valuesOf name).contains v) values
    | .scalar _ => none

/-- The changes that lead from one canonical view to the state asked for by another. -/
def changes (state : TargetState) (current wanted : Canonical) : ChangeSet :=
  match state with
  | .present | .enabled | .disabled => ⟨assigned current wanted, missing current wanted, ∅⟩
  | .exact =>
    ⟨(assigned current wanted).insertMany (cleared current wanted).entries,
      missing current wanted, surplus current wanted⟩
  | .absent => ⟨∅, ∅, shared current wanted⟩

variable (declaration : Declaration)

/-- Whether the difference for an action looks at an attribute. -/
def considers (action : Action) (withFlag : Bool) (spec : AttributeSpec) : Bool :=
  !spec.identity && spec.appliesTo action &&
    (withFlag || !declaration.isEnableAttribute spec.name)

/-- The canonical view of an object. Keys that no attribute has are left out. -/
def canonicalCurrent (object : RemoteObject) (action : Action) (withFlag : Bool) :
    Except Failure Canonical := do
  let considered := object.entries.filterMap fun entry ↦
    match declaration.attributeOfResponseKey? entry.1 with
    | some spec =>
      if considers declaration action withFlag spec then some (spec, entry.2) else none
    | none => none
  let values ← considered.mapM fun (spec, raw) ↦ do return (spec.name, ← spec.normalize raw)
  return .ofList values

/-- One requested attribute in canonical form, if the difference looks at it. -/
def canonicalRequested (action : Action) (name : String) (value : AttrValue) :
    Except Failure (Option (String × AttrValue)) :=
  match declaration.attribute? name with
  | none => .error (.validation name (.unknownAttribute declaration.name))
  | some spec =>
    if considers declaration action false spec then do
      return some (name, ← spec.normalize value.toJson)
    else .ok none

/-- The canonical view of the requested attributes. -/
def canonicalDesired (desired : DesiredState) (action : Action) : Except Failure Canonical := do
  let values ← desired.attributes.entries.mapM fun (name, value) ↦
    canonicalRequested declaration action name value
  return .ofList (values.filterMap id)

/-- The flag that a state forces and the attribute that carries it. -/
def forcedFlag (state : TargetState) : Option (Bool × EnableSpec) := do
  return (← state.forcedEnable, ← declaration.enable)

/-- A missing flag counts as enabled. -/
def withStoredFlag (flag : EnableSpec) (current : Canonical) : Canonical :=
  match current.get? flag.attr with
  | none | some (.scalar .null) =>
    current.insert flag.attr (.scalar (.bool (flag.storedValue true)))
  | some _ => current

/-- The two canonical views that an action compares. -/
def views (object : RemoteObject) (desired : DesiredState) (action : Action) :
    Except Failure (Canonical × Canonical) := do
  let forced := forcedFlag declaration desired.state
  let current ← canonicalCurrent declaration object action forced.isSome
  let wanted ← canonicalDesired declaration desired action
  return match forced with
    | some (enabled, flag) =>
      (withStoredFlag flag current,
        wanted.insert flag.attr (.scalar (.bool (flag.storedValue enabled))))
    | none => (current, wanted)

/-- The changes that an object needs to be as desired. -/
def compute (object : RemoteObject) (desired : DesiredState) (action : Action) :
    Except Failure ChangeSet := do
  let (current, wanted) ← views declaration object desired action
  return changes desired.state current wanted

/-- Equality of values, of lists as sets. -/
def sameValue : AttrValue → AttrValue → Bool
  | .list a, .list b => Ascending.ofList a = Ascending.ofList b
  | a, b => a = b

/-- Objects to a requested value that the action cannot write and that the object has otherwise. -/
def checkWritable (object : RemoteObject) (action : Action) (name : String) (value : AttrValue) :
    Except Failure Unit :=
  match declaration.attribute? name with
  | none => .ok ()
  | some spec =>
    if spec.identity || spec.appliesTo action || declaration.isEnableAttribute name then .ok ()
    else
      match object.get? spec.responseKey with
      | none => .ok ()
      | some raw => do
        let wanted ← spec.normalize value.toJson
        let current ← spec.normalize raw
        if sameValue wanted current then .ok ()
        else .error (.validation name (.unchangeable declaration.name))

def checkApplicability (object : RemoteObject) (desired : DesiredState) (action : Action) :
    Except Failure Unit :=
  desired.attributes.entries.forM fun (name, value) ↦
    checkWritable declaration object action name value

end Difference

end DirectoryReconcile
