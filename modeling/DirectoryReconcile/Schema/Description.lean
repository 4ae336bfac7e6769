import DirectoryReconcile.Schema.Declaration

/-!
# Descriptions of object types

The JSON form of a declaration. Normalizers, predicates and hooks are shown by name, and what is
not set is left out.
-/

namespace DirectoryReconcile

namespace ListRoute

def toJson (route : ListRoute) : Json :=
  .obj [("add_method", .str route.addMethod), ("remove_method", .str route.removeMethod),
    ("param", .str route.param), ("style", .str route.style.name)]

end ListRoute

namespace ActionSet

def toJson (set : ActionSet) : Json := .ofStrings (set.toList.map Action.name)

end ActionSet

namespace AttributeSpec

def toJson (spec : AttributeSpec) : Json :=
  .obj <|
    [("name", .str spec.name)] ++
    Json.optionalField "remote_name" (spec.remoteName.map .str) ++
    [("cardinality", .str spec.cardinality.name), ("kind", .str spec.kind.name),
      ("actions", spec.actions.toJson), ("identity", .bool spec.identity)] ++
    Json.optionalField "find_keyword" (if spec.findKeyword then some (.bool true) else none) ++
    [("encoding", .str spec.encoding.name)] ++
    Json.optionalField "normalizer" (spec.normalizer.map fun normalizer ↦ .str normalizer.name) ++
    Json.optionalField "route" (spec.route.map ListRoute.toJson)

end AttributeSpec

namespace MethodTable

def toJson (methods : MethodTable) : Json :=
  .obj [("add", .str methods.add), ("modify", .str methods.modify), ("remove", .str methods.remove),
    ("find", .str methods.find), ("enable", .str methods.enable), ("disable", .str methods.disable)]

end MethodTable

namespace EnableSpec

def toJson (spec : EnableSpec) : Json :=
  .obj [("attribute", .str spec.attr), ("inverted", .bool spec.inverted)]

end EnableSpec

namespace Declaration

def argumentsField (key : String) (arguments : Dict Json) : List (String × Json) :=
  Json.optionalField key (if arguments.isEmpty then none else some (.ofDict arguments))

def toJson (declaration : Declaration) : Json :=
  .obj <|
    [("name", .str declaration.name), ("methods", declaration.methods.toJson),
      ("attributes", .arr (declaration.attributes.map AttributeSpec.toJson))] ++
    Json.optionalField "enable" (declaration.enable.map EnableSpec.toJson) ++
    [("creation", .str declaration.creation.name)] ++
    argumentsField "find_args" declaration.findArgs ++
    argumentsField "remove_args" declaration.removeArgs ++
    Json.optionalField "find_predicate"
      (declaration.findPredicate.map fun predicate ↦ .str predicate.name) ++
    Json.optionalField "response_hook" (declaration.responseHook.map fun hook ↦ .str hook.name)

end Declaration

end DirectoryReconcile
