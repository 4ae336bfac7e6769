/-!
# Faults of declarations

What can be wrong with the declaration of an object type, and the request for a type that is not
declared at all.
-/

namespace DirectoryReconcile

inductive RouteFault where
  | notList
  | identity
  | emptyMethod
deriving DecidableEq, Repr

inductive EnableFault where
  | undeclared
  | identity
  | notFlag
  | emptyMethod
deriving DecidableEq, Repr

inductive SchemaError where
  | noIdentity (schema : String)
  | duplicateAttribute (schema attr : String)
  | unsearchableListIdentity (schema attr : String)
  | invalidEnable (schema attr : String) (fault : EnableFault)
  | invalidRoute (schema attr : String) (fault : RouteFault)
  | conflictingPositionalRoute (schema method first second : String)
  | missingMethod (schema entry : String)
  | unknownType (name : String)
deriving DecidableEq, Repr

namespace RouteFault

def message : RouteFault → String
  | .notList => "has a list route but is not list-valued"
  | .identity => "is an identity key and cannot be routed"
  | .emptyMethod => "has a list route with an empty method name"

end RouteFault

namespace EnableFault

def message : EnableFault → String
  | .undeclared => "is not declared"
  | .identity => "cannot be an identity key"
  | .notFlag => "must be a scalar boolean"
  | .emptyMethod => "needs enable and disable methods"

end EnableFault

namespace SchemaError

def quoted (name : String) : String := "'" ++ name ++ "'"

def message : SchemaError → String
  | .noIdentity schema => "schema " ++ quoted schema ++ " declares no identity attribute"
  | .duplicateAttribute schema attr =>
    "schema " ++ quoted schema ++ ": attribute " ++ quoted attr ++ " is declared more than once"
  | .unsearchableListIdentity schema attr =>
    "schema " ++ quoted schema ++ ": identity attribute " ++ quoted attr ++
      " is list-valued but cannot be used to search"
  | .invalidEnable schema attr fault =>
    "schema " ++ quoted schema ++ ": enable attribute " ++ quoted attr ++ " " ++ fault.message
  | .invalidRoute schema attr fault =>
    "schema " ++ quoted schema ++ ": attribute " ++ quoted attr ++ " " ++ fault.message
  | .conflictingPositionalRoute schema method first second =>
    "schema " ++ quoted schema ++ ": method " ++ quoted method ++
      " receives positional values from both " ++ quoted first ++ " and " ++ quoted second
  | .missingMethod schema entry =>
    "schema " ++ quoted schema ++ ": method table entry " ++ quoted entry ++ " is empty"
  | .unknownType name => "unknown object type " ++ quoted name

end SchemaError

end DirectoryReconcile
