import DirectoryReconcile.Schema.Attribute

/-!
# Declarations of object types

A declaration lists the attributes and the remote methods of an object type. It is accepted when
it has no fault; `fault?` names the first one. An `ObjectSchema` is an accepted declaration.
-/

namespace DirectoryReconcile

/-- A named test whether a candidate is the object with this identity. -/
structure FindPredicate where
  name : String
  holds : List AttributeSpec → Identity → Json → Bool

/-- A named change to every object in a response. -/
structure ResponseHook where
  name : String
  adjust : RemoteObject → Identity → RemoteObject

/-- The attribute that carries the enabled flag, or its opposite when inverted. -/
structure EnableSpec where
  attr : String
  inverted : Bool
deriving DecidableEq, Repr

/-- Whether the add method creates an object or its first list value does. -/
inductive Creation where
  | explicit
  | implicit
deriving DecidableEq, Repr, Inhabited

structure MethodTable where
  add : String
  modify : String
  remove : String
  find : String
  enable : String
  disable : String
deriving DecidableEq, Repr

structure Declaration where
  name : String
  methods : MethodTable
  attributes : List AttributeSpec
  enable : Option EnableSpec
  creation : Creation
  findArgs : Dict Json
  removeArgs : Dict Json
  findPredicate : Option FindPredicate
  responseHook : Option ResponseHook

namespace EnableSpec

/-- What the attribute holds to say whether the object is enabled. -/
def storedValue (spec : EnableSpec) (enabled : Bool) : Bool := enabled != spec.inverted

end EnableSpec

namespace Creation

def name : Creation → String
  | .explicit => "explicit"
  | .implicit => "implicit"

end Creation

namespace MethodTable

/-- The methods of a type, named after it. -/
def ofType (name : String) : MethodTable where
  add := name ++ "_add"
  modify := name ++ "_mod"
  remove := name ++ "_del"
  find := name ++ "_find"
  enable := name ++ "_enable"
  disable := name ++ "_disable"

end MethodTable

namespace AttributeSpec

/-- The first attribute with this name. -/
def named? (attributes : List AttributeSpec) (name : String) : Option AttributeSpec :=
  attributes.find? fun spec ↦ spec.name = name

end AttributeSpec

namespace Declaration

/-- A type without attributes, with methods named after it. -/
def ofName (name : String) : Declaration where
  name := name
  methods := .ofType name
  attributes := []
  enable := none
  creation := .explicit
  findArgs := ∅
  removeArgs := ∅
  findPredicate := none
  responseHook := none

variable (declaration : Declaration)

def attribute? (name : String) : Option AttributeSpec :=
  AttributeSpec.named? declaration.attributes name

def attributeOfResponseKey? (key : String) : Option AttributeSpec :=
  declaration.attributes.find? fun spec ↦ spec.responseKey = key

def identityAttributes : List AttributeSpec := declaration.attributes.filter (·.identity)

/-- The names of the identity attributes in positional order. -/
def identityKeys : List String := declaration.identityAttributes.map (·.name)

def isIdentity (name : String) : Bool := (declaration.attribute? name).any (·.identity)

def isEnableAttribute (name : String) : Bool := declaration.enable.any fun spec ↦ spec.attr = name

def attributesFor (action : Action) : List AttributeSpec :=
  declaration.attributes.filter (·.appliesTo action)

def routeFault? (spec : AttributeSpec) (route : ListRoute) : Option RouteFault :=
  if !spec.isList then some .notList
  else if spec.identity then some .identity
  else if route.addMethod = "" || route.removeMethod = "" then some .emptyMethod
  else none

/-- The first fault of one attribute, after attributes with these names. -/
def attributeFault? (seen : List String) (spec : AttributeSpec) : Option SchemaError :=
  if spec.name ∈ seen then some (.duplicateAttribute declaration.name spec.name)
  else if spec.identity && spec.isList && !spec.appliesTo .find then
    some (.unsearchableListIdentity declaration.name spec.name)
  else
    (spec.route.bind (routeFault? spec)).map (.invalidRoute declaration.name spec.name)

def attributesFault? (seen : List String) : List AttributeSpec → Option SchemaError
  | [] => none
  | spec :: rest =>
    (declaration.attributeFault? seen spec).or (attributesFault? (spec.name :: seen) rest)

/-- The methods that take values of an attribute as a positional argument, with the attribute. -/
def positionalMethods (spec : AttributeSpec) : List (String × String) :=
  match spec.route with
  | some route =>
    if route.style = .positional then
      [(route.addMethod, spec.name), (route.removeMethod, spec.name)]
    else []
  | none => []

/-- Two positional arguments of one method cannot be told apart. -/
def positionalFault? (seen : List (String × String)) :
    List (String × String) → Option SchemaError
  | [] => none
  | (method, owner) :: rest =>
    match seen.lookup method with
    | some first => some (.conflictingPositionalRoute declaration.name method first owner)
    | none => positionalFault? ((method, owner) :: seen) rest

def methodFault? : Option SchemaError :=
  let methods := declaration.methods
  let entries := [("add", methods.add), ("modify", methods.modify), ("remove", methods.remove),
    ("find", methods.find)]
  (entries.find? fun entry ↦ entry.2 = "").map fun entry ↦ .missingMethod declaration.name entry.1

def flagFault? (spec : EnableSpec) : Option EnableFault :=
  match declaration.attribute? spec.attr with
  | none => some .undeclared
  | some attr =>
    if attr.identity then some .identity
    else if attr.isList || attr.kind ≠ .bool then some .notFlag
    else if declaration.methods.enable = "" || declaration.methods.disable = "" then
      some .emptyMethod
    else none

def enableFault? : Option SchemaError := do
  let spec ← declaration.enable
  let fault ← declaration.flagFault? spec
  return .invalidEnable declaration.name spec.attr fault

def identityFault? : Option SchemaError :=
  if declaration.attributes.any (·.identity) then none else some (.noIdentity declaration.name)

/-- The first fault of a declaration. -/
def fault? : Option SchemaError :=
  (declaration.attributesFault? [] declaration.attributes)
    |>.or declaration.identityFault?
    |>.or (declaration.positionalFault? [] (declaration.attributes.flatMap positionalMethods))
    |>.or declaration.methodFault?
    |>.or declaration.enableFault?

end Declaration

/-- A declaration without a fault. -/
structure ObjectSchema extends Declaration where
  accepted : toDeclaration.fault? = none

namespace Declaration

/-- The declaration as a schema, or its first fault. -/
def accept (declaration : Declaration) : Except SchemaError ObjectSchema :=
  match h : declaration.fault? with
  | none => .ok ⟨declaration, h⟩
  | some error => .error error

end Declaration

end DirectoryReconcile
