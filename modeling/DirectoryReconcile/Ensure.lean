import DirectoryReconcile.Difference
import DirectoryReconcile.Response

/-!
# Reconciling an object

The request is validated, the object is looked up, and the calls that lead to the desired state are
posted: one call that creates or changes the object, one that enables or disables it, then one for
each list method, all additions before all removals. A failure ends the run; nothing is undone. A
dry run looks up the object and posts nothing else.
-/

namespace DirectoryReconcile

/-- How a run ended. -/
structure Outcome where
  changed : Bool
  objectType : String
  /-- The last object that the service reported, or the object as found. -/
  object : RemoteObject
  /-- The calls posted after the search, or skipped in a dry run. -/
  calls : List RemoteCall
  dryRun : Bool
deriving DecidableEq

namespace Outcome

def toJson (outcome : Outcome) : Json :=
  .obj [("changed", .bool outcome.changed), (outcome.objectType, .ofDict outcome.object)]

/-- The outcome for display, with the calls that a dry run skipped. -/
def render (outcome : Outcome) : Json :=
  .ofFields <| [("changed", .bool outcome.changed), (outcome.objectType, .ofDict outcome.object)] ++
    if outcome.dryRun then [("planned", .arr (outcome.calls.map RemoteCall.toJson))] else []

end Outcome

namespace Ensure

variable (declaration : Declaration)

/-! ## Validation -/

/-- Every value of the identity must belong to an identity attribute. -/
def checkIdentityName (name : String) : Except Failure Unit :=
  if declaration.isIdentity name then .ok ()
  else .error (.validation name (.notIdentity declaration.name))

/-- The canonical value of an identity attribute, which must not be missing or empty. -/
def identityValue (identity : Identity) (key : String) : Except Failure (String × AttrValue) :=
  match identity.get? key with
  | none => .error (.validation key .identityMissing)
  | some value => do
    let value ← declaration.normalize key value.toJson
    if value = .scalar .null then .error (.validation key .identityEmpty)
    else return (key, value)

def checkRequested (name : String) (value : AttrValue) : Except Failure Unit :=
  match declaration.attribute? name with
  | none => .error (.validation name (.unknownAttribute declaration.name))
  | some spec =>
    if spec.identity then .error (.validation name .identityMisplaced)
    else if declaration.isEnableAttribute name then .error (.validation name .flagMisplaced)
    else do
      let _ ← spec.normalize value.toJson
      return ()

def checkState (state : TargetState) : Except Failure Unit :=
  if state.forcedEnable.isSome && declaration.enable.isNone then
    .error (.validation "state" (.noFlag declaration.name state))
  else .ok ()

/-- Checks a request before anything is sent and returns the canonical identity. -/
def validate (desired : DesiredState) : Except Failure Identity := do
  desired.identity.keys.forM (checkIdentityName declaration)
  let identity ← declaration.identityKeys.mapM (identityValue declaration desired.identity)
  desired.attributes.entries.forM fun (name, value) ↦ checkRequested declaration name value
  checkState declaration desired.state
  return .ofList identity

/-! ## Planning -/

/-- Whether a list attribute has no methods of its own. -/
def isUnrouted (name : String) : Bool :=
  (declaration.attribute? name).any fun spec ↦ spec.route.isNone

/-- Options that set attributes to encoded values. -/
def encodedOptions (values : Dict AttrValue) : List (String × Json) :=
  values.entries.filterMap fun (name, value) ↦
    (declaration.attribute? name).map fun spec ↦ (name, spec.encode value)

/-- Whether the first call creates the object, and so cannot be left out. -/
def creates (action : Action) : Bool := action = .add && declaration.creation = .explicit

/-- List additions that are part of the call that creates the object. -/
def inlineAdds (action : Action) (changes : ChangeSet) : Dict (List Scalar) :=
  if creates declaration action then
    changes.listAdds.filter fun name _ ↦ isUnrouted declaration name
  else ∅

/-- The call that creates the object or assigns its scalars, if there is anything to do. -/
def primaryCall (identity : Identity) (action : Action) (changes : ChangeSet) :
    Option RemoteCall :=
  if changes.scalars.isEmpty && !creates declaration action then none
  else
    let scalars := encodedOptions declaration (changes.scalars.mapValues .scalar)
    let lists :=
      encodedOptions declaration ((inlineAdds declaration action changes).mapValues .list)
    some {
      method := if action = .add then declaration.methods.add else declaration.methods.modify
      positional := declaration.positional identity
      item := .ofList (scalars ++ lists ++ [("all", .bool true)]) }

/-- What is left of a change set after the first call. -/
def afterPrimary (action : Action) (changes : ChangeSet) : ChangeSet :=
  if creates declaration action then
    { changes with
      scalars := ∅
      listAdds := changes.listAdds.filter fun name _ ↦ !isUnrouted declaration name }
  else { changes with scalars := ∅ }

/-- A call with the encoded values of a list at the place that its route has for them. -/
def place (route : ListRoute) (values : Json) (call : RemoteCall) : RemoteCall :=
  match route.style with
  | .keyword => { call with item := call.item.insert route.param values }
  | .positional => { call with positional := call.positional ++ [values] }

/-- Puts the values of one routed list into the call of its method. -/
def addRouted (positional : List Json) (adding : Bool) (calls : Dict RemoteCall)
    (entry : String × List Scalar) : Dict RemoteCall :=
  match declaration.attribute? entry.1 with
  | none => calls
  | some spec =>
    match spec.route with
    | none => calls
    | some route =>
      let method := route.method adding
      let call := (calls.get? method).getD (.plain method positional)
      calls.insert method (place route (spec.encode (.list entry.2)) call)

/-- One call for each list method. -/
def routedCalls (positional : List Json) (adding : Bool) (lists : Dict (List Scalar)) :
    Dict RemoteCall :=
  lists.entries.foldl (addRouted declaration positional adding) ∅

/-- A list value as an assignment. -/
def assignment (spec : AttributeSpec) (value : Scalar) : String :=
  spec.responseKey ++ "=" ++ value.display

/-- The values of lists without methods of their own, as assignments in ascending order. -/
def assignments (lists : Dict (List Scalar)) : List String :=
  Ascending.ofList <| lists.entries.flatMap fun (name, values) ↦
    match declaration.attribute? name with
    | some spec => if spec.route.isNone then values.map (assignment spec) else []
    | none => []

/-- The calls of one phase in ascending order of their methods. -/
def phaseCalls (identity : Identity) (adding : Bool) (lists : Dict (List Scalar)) :
    List RemoteCall :=
  let positional := declaration.positional identity
  let routed := routedCalls declaration positional adding lists
  match assignments declaration lists with
  | [] => routed.values
  | texts =>
    let method := declaration.methods.modify
    let call := (routed.get? method).getD (.plain method positional)
    let options := [(if adding then "addattr" else "delattr", Json.ofStrings texts),
      ("all", .bool true)]
    (routed.insert method { call with item := call.item.insertMany options }).values

/-- The calls that add and then remove list values. -/
def listCalls (identity : Identity) (changes : ChangeSet) : List RemoteCall :=
  phaseCalls declaration identity true changes.listAdds ++
    phaseCalls declaration identity false changes.listRemoves

/-! ## The run -/

/-- Posts a call and returns the object reported, or only notes it in a dry run. -/
def issue (dryRun : Bool) (call : RemoteCall) : Exchange (Option RemoteObject) := do
  if dryRun then
    Exchange.record .skipped (some call.method) call.display
    return none
  else
    Exchange.record .call (some call.method) call.display
    return some (← declaration.invoke call)

/-- Issues calls one after the other and returns the last object reported, if any. -/
def issueAll (dryRun : Bool) (last : Option RemoteObject) :
    List RemoteCall → Exchange (Option RemoteObject)
  | [] => return last
  | call :: rest => do
    let reported ← issue declaration dryRun call
    issueAll dryRun (reported.or last) rest

def finish (dryRun : Bool) (calls : List RemoteCall) (object : RemoteObject) :
    Exchange Outcome := do
  let changed := !calls.isEmpty
  Exchange.record .done none
    ("changed=" ++ toString changed ++ " calls=" ++ toString calls.length)
  return ⟨changed, declaration.name, object, calls, dryRun⟩

/-- The call that brings the flag of an object to the forced one, if it differs. -/
def enableCall (identity : Identity) (state : TargetState) (object : RemoteObject) :
    Except Failure (Option RemoteCall) :=
  match Difference.forcedFlag declaration state with
  | none => .ok none
  | some (enabled, _) => do
    if (← declaration.isEnabled object) = enabled then return none
    else
      let method := if enabled then declaration.methods.enable else declaration.methods.disable
      return some (.plain method (declaration.positional identity))

/-- The object after its flag was set. A reply without an object stands for the object before, with
the flag. -/
def withFlag (state : TargetState) (before reported : RemoteObject) : RemoteObject :=
  match Difference.forcedFlag declaration state with
  | some (enabled, flag) =>
    if reported.isEmpty then before.insert flag.attr (.bool (flag.storedValue enabled))
    else reported
  | none => reported

/-- The changes apart from the flag, which has a call of its own. -/
def withoutFlag (state : TargetState) (changes : ChangeSet) : ChangeSet :=
  match Difference.forcedFlag declaration state with
  | some (_, flag) => { changes with scalars := changes.scalars.erase flag.attr }
  | none => changes

def planDetail (action : Action) (changes : ChangeSet) : String :=
  "action=" ++ action.title ++ " scalars=" ++ toString changes.scalars.size ++
    " list_adds=" ++ toString changes.listAdds.size ++
    " list_removes=" ++ toString changes.listRemoves.size

/-- Whether to create or to change an object. -/
def actionFor (object : RemoteObject) : Action := if object.isEmpty then .add else .modify

/-- The changes that a found object needs, if the request can be met at all. -/
def plan (desired : DesiredState) (object : RemoteObject) : Except Failure ChangeSet := do
  let action := actionFor object
  if desired.state ≠ .absent then Difference.checkApplicability declaration object desired action
  let changes ← Difference.compute declaration object desired action
  return withoutFlag declaration desired.state changes

/-- Issues the calls for the changes of a found object. -/
def apply (desired : DesiredState) (identity : Identity) (found : RemoteObject)
    (changes : ChangeSet) : Exchange Outcome := do
  let action := actionFor found
  let issueAll := issueAll declaration desired.dryRun none
  let primary := (primaryCall declaration identity action changes).toList
  let created ← issueAll primary
  let baseline := created.getD found
  let enabling ← Exchange.ofExcept (enableCall declaration identity desired.state baseline)
  let flagged ← issueAll enabling.toList
  let lists := listCalls declaration identity (afterPrimary declaration action changes)
  let listed ← issueAll lists
  let last := listed.or (flagged.map (withFlag declaration desired.state baseline))
  finish declaration desired.dryRun (primary ++ enabling.toList ++ lists) (last.getD baseline)

/-- The call that removes a whole object. -/
def removeCall (identity : Identity) : RemoteCall where
  method := declaration.methods.remove
  positional := declaration.positional identity
  item := declaration.removeArgs

/-- Brings one object to its desired state. -/
def run (desired : DesiredState) : Exchange Outcome := do
  let identity ← Exchange.ofExcept (validate declaration desired)
  Exchange.record .validate none ("state=" ++ desired.state.name)
  let found ← declaration.find identity
  Exchange.record .find (some declaration.methods.find)
    (if found.isEmpty then "not found" else "found")
  if desired.state = .absent && found.isEmpty then finish declaration desired.dryRun [] ∅
  else if desired.state = .absent && !desired.hasLists declaration then
    let call := removeCall declaration identity
    let _ ← issue declaration desired.dryRun call
    finish declaration desired.dryRun [call] ∅
  else
    let changes ← Exchange.ofExcept (plan declaration desired found)
    Exchange.record .plan none (planDetail (actionFor found) changes)
    apply declaration desired identity found changes

end Ensure

end DirectoryReconcile
