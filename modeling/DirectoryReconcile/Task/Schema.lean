import DirectoryReconcile.Json
import DirectoryReconcile.TargetState

/-!
# The schema of task files

A JSON Schema that describes what a task file may hold.
-/

namespace DirectoryReconcile.TaskSchema

def ofType (type : String) : List (String × Json) := [("type", .str type)]

def described (text : String) (fields : List (String × Json)) : Json :=
  .ofFields (("description", .str text) :: fields)

def reference (name : String) : Json := .obj [("$ref", .str ("#/definitions/" ++ name))]

def stateDescription : TargetState → String
  | .present => "Object exists and carries at least the requested values."
  | .absent => "Object is removed, or the requested list values are removed from it."
  | .exact => "Object exists with exactly the requested values."
  | .enabled => "Present, and the enable attribute says enabled."
  | .disabled => "Present, and the enable attribute says disabled."

/-- The schema of one state, which is written as its name. -/
def state (state : TargetState) : Json :=
  described (stateDescription state) (("enum", .ofStrings [state.name]) :: ofType "string")

def states : Json :=
  described "Requested end state of a reconciliation."
    [("oneOf", .arr (TargetState.all.map state))]

def scalarDescription : String :=
  "A single canonical attribute value.\n\nThe derived ordering (`Null < Bool < Int < Str`, " ++
    "then by value) is what makes diff output deterministic."

def scalar : Json :=
  described scalarDescription
    [("anyOf", .arr
      [described "The unset sentinel. Assigning it clears the attribute remotely." (ofType "null"),
        .obj (ofType "boolean"), .obj (("format", .str "int64") :: ofType "integer"),
        .obj (ofType "string")])]

def attrValue : Json :=
  described "A requested or canonicalized attribute value: one scalar or a list."
    [("anyOf", .arr
      [reference "Scalar", .obj (("items", reference "Scalar") :: ofType "array")])]

/-- The schema of attribute values by name. -/
def attrValues (text : String) : Json :=
  described text <|
    [("additionalProperties", reference "AttrValue"), ("default", .obj [])] ++ ofType "object"

def properties : Json :=
  .obj [("attributes", attrValues "Attribute values, when not given through `params`."),
    ("check", described "Report what would change without changing it."
      (("default", .bool false) :: ofType "boolean")),
    ("identity", attrValues "Identity values, when not given through `params`."),
    ("params", attrValues "Identity and attribute values together."),
    ("state", described "Requested end state."
      [("allOf", .arr [reference "TargetState"]), ("default", .str TargetState.present.name)]),
    ("type", described "Object type name, e.g. `group` or `dnsrecord`." (ofType "string"))]

/-- The whole schema. -/
def toJson : Json :=
  described "Contents of a task file." <|
    [("$schema", .str "http://json-schema.org/draft-07/schema#"),
      ("additionalProperties", .bool false),
      ("definitions",
        .obj [("AttrValue", attrValue), ("Scalar", scalar), ("TargetState", states)]),
      ("properties", properties), ("required", .ofStrings ["type"]), ("title", .str "TaskFile")] ++
    ofType "object"

end DirectoryReconcile.TaskSchema
