import DirectoryReconcile.Schema.Declaration

/-!
# Desired states

What a caller wants one object to look like.
-/

namespace DirectoryReconcile

structure DesiredState where
  identity : Identity
  attributes : Dict AttrValue
  state : TargetState
  dryRun : Bool
deriving DecidableEq

namespace DesiredState

/-- A state without values. -/
def ofState (state : TargetState) (dryRun : Bool) : DesiredState := ⟨∅, ∅, state, dryRun⟩

/-- Whether a requested attribute is a list of the object type, whatever its value. -/
def hasLists (desired : DesiredState) (declaration : Declaration) : Bool :=
  desired.attributes.keys.any fun name ↦ (declaration.attribute? name).any (·.isList)

/-- Splits values into those of the identity and the others. -/
def ofParams (declaration : Declaration) (params : Dict AttrValue) (state : TargetState) :
    DesiredState where
  identity := params.filter fun name _ ↦ declaration.isIdentity name
  attributes := params.filter fun name _ ↦ !declaration.isIdentity name
  state := state
  dryRun := false

def toJson (desired : DesiredState) : Json :=
  .obj [("identity", AttrValue.dictToJson desired.identity),
    ("attributes", AttrValue.dictToJson desired.attributes),
    ("state", .str desired.state.name), ("dry_run", .bool desired.dryRun)]

end DesiredState

end DirectoryReconcile
