import DirectoryReconcile.Failure
import DirectoryReconcile.Schema.Action

/-!
# Attributes

The declaration of one attribute of an object type: its cardinality and kind, the actions it takes
part in, its name in responses, how its values are written into requests and read from responses,
and the methods of its own that add and remove its values.
-/

namespace DirectoryReconcile

inductive Cardinality where
  | scalar
  | list
deriving DecidableEq, Repr, Inhabited

/-- How a value is written into a request. -/
inductive Encoding where
  | plain
  | base64
  | dnsName
deriving DecidableEq, Repr, Inhabited

/-- Where a method of an attribute's own takes the values: in a named option, or in one more
positional argument after the identity. -/
inductive RouteStyle where
  | keyword
  | positional
deriving DecidableEq, Repr, Inhabited

/-- The methods that add and remove values of a list attribute. -/
structure ListRoute where
  addMethod : String
  removeMethod : String
  param : String
  style : RouteStyle
deriving DecidableEq, Repr

/-- A named function from one raw element to its comparable form. -/
structure ValueNormalizer where
  name : String
  apply : Json → Except String Json

structure AttributeSpec where
  name : String
  remoteName : Option String
  cardinality : Cardinality
  kind : ValueKind
  actions : ActionSet
  identity : Bool
  findKeyword : Bool
  encoding : Encoding
  normalizer : Option ValueNormalizer
  route : Option ListRoute

namespace Cardinality

def name : Cardinality → String
  | .scalar => "scalar"
  | .list => "list"

end Cardinality

namespace Encoding

def name : Encoding → String
  | .plain => "plain"
  | .base64 => "base64"
  | .dnsName => "dns_name"

/-- The key of the object that an encoded value is wrapped in. -/
def wrapper? : Encoding → Option String
  | .plain => none
  | .base64 => some "__base64__"
  | .dnsName => some "__dns_name__"

/-- The value inside its wrapper. -/
def wrap (encoding : Encoding) (value : Json) : Json :=
  match encoding.wrapper? with
  | some key => .obj [(key, value)]
  | none => value

/-- The scalar inside its wrapper; null is never wrapped. -/
def encode (encoding : Encoding) (value : Scalar) : Json :=
  if value.isNull then .null else encoding.wrap value.toJson

end Encoding

namespace RouteStyle

def name : RouteStyle → String
  | .keyword => "keyword"
  | .positional => "positional"

end RouteStyle

namespace ListRoute

/-- The method of an addition or of a removal. -/
def method (route : ListRoute) (adding : Bool) : String :=
  if adding then route.addMethod else route.removeMethod

end ListRoute

namespace AttributeSpec

/-- A managed text attribute without any special treatment. -/
def base (name : String) (cardinality : Cardinality) : AttributeSpec where
  name := name
  remoteName := none
  cardinality := cardinality
  kind := .str
  actions := .managed
  identity := false
  findKeyword := false
  encoding := .plain
  normalizer := none
  route := none

def scalar (name : String) : AttributeSpec := base name .scalar

def list (name : String) : AttributeSpec := base name .list

/-- A text that helps to name the object, in every action. -/
def identityKey (name : String) : AttributeSpec :=
  { base name .scalar with identity := true, actions := .every }

/-- Values are added and removed through a named option of these methods. -/
def routed (spec : AttributeSpec) (addMethod removeMethod param : String) : AttributeSpec :=
  { spec with route := some ⟨addMethod, removeMethod, param, .keyword⟩ }

/-- Values are added and removed through a positional argument of these methods. -/
def routedPositional (spec : AttributeSpec) (addMethod removeMethod : String) : AttributeSpec :=
  { spec with route := some ⟨addMethod, removeMethod, spec.name, .positional⟩ }

def isList (spec : AttributeSpec) : Bool := spec.cardinality = .list

def appliesTo (spec : AttributeSpec) (action : Action) : Bool := spec.actions.contains action

/-- The key of this attribute in responses. -/
def responseKey (spec : AttributeSpec) : String := spec.remoteName.getD spec.name

/-- The elements of a raw value: null has none, and a single value counts as one. -/
def elements : Json → List Json
  | .arr items => items
  | .null => []
  | other => [other]

def normalizeElement (spec : AttributeSpec) (element : Json) : Except ValueFault Scalar :=
  match spec.normalizer with
  | some normalizer =>
    match normalizer.apply element with
    | .ok value => spec.kind.coerce value
    | .error reason => .error (.refused reason)
  | none => spec.kind.coerce element

/-- The value of a cardinality that holds these scalars. -/
def shape (cardinality : Cardinality) (scalars : List Scalar) : Except ValueFault AttrValue :=
  match cardinality, scalars with
  | .list, scalars => .ok (.list scalars)
  | .scalar, [] => .ok (.scalar .null)
  | .scalar, [value] => .ok (.scalar value)
  | .scalar, scalars => .error (.notSingle scalars.length)

/-- The canonical form of a raw value: each element normalized and read as the attribute's kind,
without nulls, in the attribute's cardinality. -/
def canonical (spec : AttributeSpec) (raw : Json) : Except ValueFault AttrValue := do
  let scalars ← (elements raw).mapM spec.normalizeElement
  shape spec.cardinality (scalars.filter fun value ↦ !value.isNull)

/-- The canonical form, with a fault as an objection to this attribute. -/
def normalize (spec : AttributeSpec) (raw : Json) : Except Failure AttrValue :=
  match spec.canonical raw with
  | .ok value => .ok value
  | .error fault => .error (.validation spec.name (.value fault))

/-- A value as it is written into a request. -/
def encode (spec : AttributeSpec) : AttrValue → Json
  | .scalar value => spec.encoding.encode value
  | .list values => .arr (values.map spec.encoding.encode)

end AttributeSpec

end DirectoryReconcile
