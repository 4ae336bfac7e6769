import DirectoryReconcile.Json.Printer
import DirectoryReconcile.Schema.Declaration

/-!
# Remote calls

A call names a method and carries positional arguments and named options. The identity of an
object stands in the positional arguments, except that a search may take parts of it as options.
-/

namespace DirectoryReconcile

structure RemoteCall where
  method : String
  positional : List Json
  item : Dict Json
deriving DecidableEq

namespace RemoteCall

/-- A call without options. -/
def plain (method : String) (positional : List Json) : RemoteCall := ⟨method, positional, ∅⟩

/-- The arguments as they are sent. -/
def params (call : RemoteCall) : Json := .arr [.arr call.positional, .ofDict call.item]

def toJson (call : RemoteCall) : Json :=
  .obj [("method", .str call.method), ("params", call.params)]

def display (call : RemoteCall) : String := call.method ++ (Json.arr call.positional).compact

end RemoteCall

namespace Declaration

variable (declaration : Declaration)

/-- The encoded values of these attributes that the identity has, in the attributes' order. -/
def encodedIdentity (attributes : List AttributeSpec) (identity : Identity) :
    List (String × Json) :=
  attributes.filterMap fun spec ↦
    (identity.get? spec.name).map fun value ↦ (spec.name, spec.encode value)

/-- The identity as positional arguments of a call other than a search. -/
def positional (identity : Identity) : List Json :=
  (encodedIdentity declaration.identityAttributes identity).map (·.2)

/-- The positional arguments of a search: what is not passed as an option. -/
def searchPositional (identity : Identity) : List Json :=
  (encodedIdentity (declaration.identityAttributes.filter fun spec ↦ !spec.findKeyword)
    identity).map (·.2)

def searchOptions (identity : Identity) : Dict Json :=
  .ofList (encodedIdentity (declaration.identityAttributes.filter (·.findKeyword)) identity)

/-- Asks for all attributes of the objects found. -/
def findCall (identity : Identity) : RemoteCall where
  method := declaration.methods.find
  positional := declaration.searchPositional identity
  item := (Dict.ofList [("all", .bool true)]).insertMany
    ((declaration.searchOptions identity).entries ++ declaration.findArgs.entries)

end Declaration

end DirectoryReconcile
