import DirectoryReconcile.Exchange

/-!
# Responses

The body of a response holds an error or a result. A result is unwrapped, of several objects the
last one that is wanted is kept, its attributes take the shape that the declaration gives them, and
the type's hook has the last word.
-/

namespace DirectoryReconcile

namespace Response

/-- The error that a body holds. -/
def fault? (method : String) (body : Json) : Option RemoteError :=
  match body.get? "error" with
  | none | some .null => none
  | some (.str message) => some (.fault method none message)
  | some error =>
    let code := (error.get? "code").bind Json.asSigned64?
    let message := (error.get? "message").bind Json.asString?
    some (.fault method code (message.getD error.compact))

/-- The result of a body, inside a second result if there is one. -/
def result (body : Json) : Json :=
  match body.get? "result" with
  | some inner => (inner.get? "result").getD inner
  | none => .null

/-- Of a list, the last element that passes. -/
def select (keep : Json → Bool) : Json → Json
  | .arr items => ((items.filter keep).getLast?).getD .null
  | other => other

/-- A value in the shape of its attribute: a list of one is a scalar of a scalar attribute, and a
bare value a list of one of a list attribute. -/
def fitValue (isList : Bool) : Json → Json
  | .arr [only] => if isList then .arr [only] else only
  | .arr items => .arr items
  | .null => .null
  | other => if isList then .arr [other] else other

/-- Fits the value of one attribute, if the object carries it. -/
def fitAttribute (object : RemoteObject) (spec : AttributeSpec) : RemoteObject :=
  match object.get? spec.responseKey with
  | some value => object.insert spec.responseKey (fitValue spec.isList value)
  | none => object

/-- Fits the value of every attribute that the object carries. -/
def fit (declaration : Declaration) (object : RemoteObject) : RemoteObject :=
  declaration.attributes.foldl fitAttribute object

/-- An object in the shape of its type, after the type's hook. -/
def present (declaration : Declaration) (identity : Identity) (value : Json) : RemoteObject :=
  let object := fit declaration value.fields
  match declaration.responseHook with
  | some hook => hook.adjust object identity
  | none => object

/-- The object that a body reports; anything but an object counts as none. -/
def object (declaration : Declaration) (keep : Json → Bool) (identity : Identity) (body : Json) :
    RemoteObject :=
  present declaration identity (select keep (result body))

end Response

namespace Declaration

variable (declaration : Declaration)

def normalize (name : String) (raw : Json) : Except Failure AttrValue :=
  match declaration.attribute? name with
  | some spec => spec.normalize raw
  | none => .error (.validation name (.unknownAttribute declaration.name))

/-- The value inside an object with a single field. -/
def unwrapSingle : Json → Json
  | .obj [(_, value)] => value
  | other => other

/-- The identity that the leading positional arguments of a call spell out. -/
def identityOfCall (call : RemoteCall) : Identity :=
  .ofList <| (declaration.identityKeys.zip call.positional).filterMap fun (key, raw) ↦
    match declaration.normalize key (unwrapSingle raw) with
    | .ok value => some (key, value)
    | .error _ => none

/-- Whether an object is enabled. An object without the flag is. -/
def isEnabled (object : RemoteObject) : Except Failure Bool :=
  match declaration.enable with
  | none => .ok true
  | some flag =>
    match declaration.attribute? flag.attr with
    | none => .error (.validation flag.attr (.unknownAttribute declaration.name))
    | some spec =>
      match object.get? spec.responseKey with
      | none => .ok true
      | some raw =>
        match spec.normalize raw with
        | .ok (.scalar (.bool stored)) => .ok (stored != flag.inverted)
        | .ok _ => .ok true
        | .error failure => .error failure

/-- Posts a call and returns the object that the response reports. -/
def exchange (call : RemoteCall) (keep : Json → Bool) (identity : Identity) :
    Exchange RemoteObject := do
  let body ← Exchange.request call
  match Response.fault? call.method body with
  | some error => .fail (.remote error)
  | none => return Response.object declaration keep identity body

/-- Whether a candidate of a search is wanted. -/
def isWanted (identity : Identity) (candidate : Json) : Bool :=
  declaration.findPredicate.all fun predicate ↦
    predicate.holds declaration.attributes identity candidate

/-- Searches for the object with an identity; no match is an object without fields. -/
def find (identity : Identity) : Exchange RemoteObject :=
  declaration.exchange (declaration.findCall identity) (declaration.isWanted identity) identity

/-- Posts a call and returns the object that the service reports. -/
def invoke (call : RemoteCall) : Exchange RemoteObject :=
  declaration.exchange call (fun _ ↦ true) (declaration.identityOfCall call)

end Declaration

end DirectoryReconcile
