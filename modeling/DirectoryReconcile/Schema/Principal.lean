import DirectoryReconcile.Schema.Declaration

/-!
# Principals

A principal is a name with an optional realm. The realm is dropped for comparison, and the
canonical principal is not shown among the aliases of its object.
-/

namespace DirectoryReconcile

/-- The name of a principal; a text with more than one `@` is not a principal. -/
def principalName (s : String) : String :=
  match Text.splitAll '@' s with
  | [name, _] => name
  | _ => s

namespace ValueNormalizer

def stripRealmOf : Json → Json
  | .str s => .str (principalName s)
  | other => other

def stripRealm : ValueNormalizer := ⟨"strip_realm", fun value ↦ .ok (stripRealmOf value)⟩

end ValueNormalizer

namespace ResponseHook

def canonicalKey : String := "krbcanonicalname"

def aliasesKey : String := "krbprincipalname"

/-- The canonical principal of an object: its own text or the first of its list, else the one of
the requested identity. -/
def canonicalPrincipal? (object : RemoteObject) (identity : Identity) : Option String :=
  match object.get? canonicalKey with
  | some (.str s) => some s
  | some (.arr items) => items.head?.bind Json.asString?
  | _ =>
    match identity.get? canonicalKey with
    | some (.scalar value) => value.asString?
    | _ => none

/-- The object without a principal among its aliases; no empty list of aliases is left. -/
def dropAlias (principal : String) (object : RemoteObject) : RemoteObject :=
  match object.get? aliasesKey with
  | some (.arr aliases) =>
    let kept := aliases.filter fun entry ↦ entry.asString? ≠ some principal
    if kept.isEmpty then object.erase aliasesKey else object.insert aliasesKey (.arr kept)
  | _ => object

def dropCanonicalPrincipal : ResponseHook where
  name := "drop_canonical_principal"
  adjust object identity :=
    match canonicalPrincipal? object identity with
    | some principal => dropAlias principal object
    | none => object

end ResponseHook

end DirectoryReconcile
