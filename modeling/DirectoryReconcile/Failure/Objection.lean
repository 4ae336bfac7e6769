import DirectoryReconcile.Schema.Value
import DirectoryReconcile.TargetState

/-!
# Objections to a request

Why a requested value or state does not fit the declaration of its object type, or an argument does
not fit its command.
-/

namespace DirectoryReconcile

inductive Objection where
  | unknownAttribute (schema : String)
  | notIdentity (schema : String)
  | identityMissing
  | identityEmpty
  | identityMisplaced
  | flagMisplaced
  | unchangeable (schema : String)
  | noFlag (schema : String) (state : TargetState)
  | value (fault : ValueFault)
  | noAssignment
  | emptyKey
  | noKeyOf (schema : String) (keys : List String)
  | noFilter
  | stated (text : String)
deriving DecidableEq, Repr

namespace Objection

def message : Objection → String
  | .unknownAttribute schema => "not an attribute of object type '" ++ schema ++ "'"
  | .notIdentity schema => "not an identity key of object type '" ++ schema ++ "'"
  | .identityMissing => "identity value is required"
  | .identityEmpty => "identity value must not be empty"
  | .identityMisplaced => "is an identity key and belongs in the identity"
  | .flagMisplaced => "is controlled through the enabled and disabled states"
  | .unchangeable schema => "cannot be changed once the " ++ schema ++ " exists"
  | .noFlag schema state =>
    "object type '" ++ schema ++ "' has no enable attribute, so it cannot be " ++ state.name
  | .value fault => fault.message
  | .noAssignment => "expected key=value"
  | .emptyKey => "empty key"
  | .noKeyOf schema keys =>
    "not an identity key of '" ++ schema ++ "' (expected " ++ Text.joinWith ", " keys ++ ")"
  | .noFilter => "a NAME and INPUT are required (or --list)"
  | .stated text => text

end Objection

end DirectoryReconcile
