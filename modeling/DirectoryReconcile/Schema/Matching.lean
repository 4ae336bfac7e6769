import DirectoryReconcile.Schema.Declaration

/-!
# Telling the requested object from its neighbours

The service finds objects by parts of their names. A candidate is the requested object when each
requested value is among its own, ignoring the case of ASCII letters.
-/

namespace DirectoryReconcile

namespace Scalar

/-- Equality, for texts up to the case of ASCII letters. -/
def sameName : Scalar → Scalar → Bool
  | .str a, .str b => Text.sameIgnoringCase a b
  | a, b => a = b

end Scalar

namespace FindPredicate

/-- Whether a candidate has the requested values of one attribute. Attributes that are not
declared or that the candidate does not carry are not looked at. -/
def carries (attributes : List AttributeSpec) (candidate : Json) (key : String)
    (wanted : AttrValue) : Bool :=
  match AttributeSpec.named? attributes key with
  | none => true
  | some spec =>
    match candidate.get? spec.responseKey with
    | none => true
    | some raw =>
      match spec.canonical raw with
      | .ok found => wanted.values.all fun w ↦ found.values.any fun f ↦ w.sameName f
      | .error _ => false

def identityMatches : FindPredicate where
  name := "identity_matches"
  holds attributes identity candidate :=
    identity.entries.all fun entry ↦ carries attributes candidate entry.1 entry.2

end FindPredicate

end DirectoryReconcile
