import DirectoryReconcile.RemoteCall

/-!
# Stored entries

An entry is named by one text for each identity attribute and keeps a list of values for each
response key. Values are stored without wrappers and compared as texts, ignoring the case of ASCII
letters; they are wrapped again when an entry is reported.
-/

namespace DirectoryReconcile

namespace Stored

/-- A value without the wrapper of its encoding. -/
def unwrapOne (value : Json) : Json :=
  match value with
  | .obj [(key, inner)] => if key = "__base64__" || key = "__dns_name__" then inner else value
  | _ => value

mutual

/-- A value, or each element of a list, without wrappers. -/
def unwrap : Json → Json
  | .arr items => .arr (unwrapItems items)
  | other => unwrapOne other

def unwrapItems : List Json → List Json
  | [] => []
  | item :: rest => unwrap item :: unwrapItems rest

end

/-- The text of a value without its wrapper. -/
def text (value : Json) : String :=
  match unwrap value with
  | .str s => s
  | other => other.compact

/-- A value as a list. -/
def asList (value : Json) : Json := .arr (AttributeSpec.elements value)

/-- Whether two values count as the same one in a list. -/
def sameValue (a b : Json) : Bool := a.alike b || Text.sameIgnoringCase (text a) (text b)

/-- The list with a value at its end, unless it holds the same one. -/
def push (stored : List Json) (value : Json) : List Json :=
  if stored.any fun other ↦ sameValue other value then stored else stored ++ [value]

/-- The stored values of a key. -/
def valuesOf (attrs : Dict Json) (key : String) : List Json :=
  ((attrs.get? key).map AttributeSpec.elements).getD []

/-- Adds values that a key does not hold yet. -/
def pushValues (attrs : Dict Json) (key : String) (values : Json) : Dict Json :=
  attrs.insert key (.arr ((AttributeSpec.elements values).foldl push (valuesOf attrs key)))

/-- The stored values that are the same as none of these. -/
def without (values : Json) (stored : List Json) : List Json :=
  stored.filter fun value ↦ !(AttributeSpec.elements values).any fun other ↦ sameValue value other

/-- Removes values of a key, and the key with its last value. -/
def dropValues (attrs : Dict Json) (key : String) (values : Json) : Dict Json :=
  match attrs.get? key with
  | some (.arr stored) =>
    if (without values stored).isEmpty then attrs.erase key
    else attrs.insert key (.arr (without values stored))
  | _ => attrs

/-- How many values more or fewer a key holds. -/
def countOf (attrs : Dict Json) (key : String) : Nat := (valuesOf attrs key).length

end Stored

/-- An object of the directory. -/
structure Entry where
  /-- One text for each identity attribute, in the attributes' order. -/
  identity : List String
  /-- The list of values of each response key. -/
  attrs : Dict Json
deriving DecidableEq

namespace Entry

/-- An entry that holds nothing but its identity. -/
def named (declaration : Declaration) (identity : List String) : Entry where
  identity := identity
  attrs := .ofList <| (declaration.identityAttributes.zip identity).map fun (spec, text) ↦
    (spec.responseKey, .arr [.str text])

/-- Equality of identities, ignoring the case of ASCII letters. -/
def sameIdentity : List String → List String → Bool
  | [], [] => true
  | a :: as, b :: bs => Text.sameIgnoringCase a b && sameIdentity as bs
  | _, _ => false

def isNamed (entry : Entry) (identity : List String) : Bool := sameIdentity entry.identity identity

/-- The text that names an entry among those that share the rest of its identity. -/
def primaryKey (identity : List String) : String := identity.getLastD ""

/-- A stored value as the service reports it. -/
def wrapped (encoding : Encoding) : Json → Json
  | .arr items => .arr (items.map encoding.wrap)
  | other => encoding.wrap other

/-- The entry as the service reports it. -/
def render (declaration : Declaration) (entry : Entry) : Json :=
  .obj <| entry.attrs.entries.map fun (key, value) ↦
    let encoding := ((declaration.attributeOfResponseKey? key).map (·.encoding)).getD .plain
    (key, wrapped encoding value)

theorem sameIdentity_refl (identity : List String) : sameIdentity identity identity := by
  induction identity with
  | nil => rfl
  | cons head rest ih => simp [sameIdentity, ih, Text.sameIgnoringCase_refl]

theorem sameIdentity_symm {a b : List String} (h : sameIdentity a b) : sameIdentity b a := by
  induction a generalizing b with
  | nil => cases b <;> simp_all [sameIdentity]
  | cons head rest ih =>
    cases b with
    | nil => simp [sameIdentity] at h
    | cons head' rest' =>
      simp only [sameIdentity, Bool.and_eq_true] at h ⊢
      exact ⟨Text.sameIgnoringCase_symm h.1, ih h.2⟩

theorem sameIdentity_trans {a b c : List String} (hab : sameIdentity a b)
    (hbc : sameIdentity b c) : sameIdentity a c := by
  induction a generalizing b c with
  | nil => cases b <;> cases c <;> simp_all [sameIdentity]
  | cons head rest ih =>
    cases b with
    | nil => simp [sameIdentity] at hab
    | cons head' rest' =>
      cases c with
      | nil => simp [sameIdentity] at hbc
      | cons head'' rest'' =>
        simp only [sameIdentity, Bool.and_eq_true] at *
        exact ⟨Text.sameIgnoringCase_trans hab.1 hbc.1, ih hab.2 hbc.2⟩

end Entry

end DirectoryReconcile
