import DirectoryReconcile.Document
import DirectoryReconcile.Failure.Catalogue
import DirectoryReconcile.Files
import DirectoryReconcile.Json.Reader
import DirectoryReconcile.Toml

/-!
# Tasks

A task names an object type and what one object of it should look like. Its values are given
together, to be split by the declaration of the type, or apart as identity and attributes.
-/

namespace DirectoryReconcile

/-- The formats of task files. -/
inductive TaskFormat where
  | json
  | toml
deriving DecidableEq, Repr

structure Task where
  objectType : String
  state : TargetState
  params : Dict AttrValue
  identity : Dict AttrValue
  attributes : Dict AttrValue
  check : Bool
deriving DecidableEq

/-- Why a text is no task. -/
inductive TaskFault where
  | malformed
  | mixed
  | stated (text : String)
deriving DecidableEq, Repr

namespace TaskFault

def message : TaskFault → String
  | .malformed => "not a task"
  | .mixed => "use either 'params' or 'identity'/'attributes', not both"
  | .stated text => text

end TaskFault

inductive TaskError where
  | unreadable (path : String)
  | invalid (path : String) (fault : TaskFault)
deriving DecidableEq, Repr

namespace TaskError

def code : TaskError → ErrorCode
  | .unreadable _ => .taskReadError
  | .invalid _ _ => .taskParseError

def message : TaskError → String
  | .unreadable path => "cannot read task file " ++ path
  | .invalid path fault => "invalid task file " ++ path ++ ": " ++ fault.message

end TaskError

namespace TaskFormat

/-- Files are in TOML unless their name ends in `.json`. -/
def ofPath (path : String) : TaskFormat :=
  if (Path.extension? path).any (Text.sameIgnoringCase "json") then .json else .toml

def dialect : TaskFormat → Dialect
  | .json => .json
  | .toml => .toml

def read? (text : String) : TaskFormat → Option Document
  | .json => (Json.read? text).map Document.ofJson
  | .toml => Toml.read? text

end TaskFormat

namespace Task

/-- The fields of a task in the order in which a list gives them. -/
def fieldNames : List String := ["type", "state", "params", "identity", "attributes", "check"]

/-- The task that a document describes; only the type is required. -/
def ofDocument? (dialect : Dialect) (document : Document) : Option Task := do
  let fields ← document.closedRecord? dialect fieldNames
  return {
    objectType := ← (← fields.get? "type").text?
    state := ← Document.fieldOr fields "state" .present
      (Document.choice? dialect TargetState.ofName?)
    params := ← Document.fieldOr fields "params" ∅ Document.attrValues?
    identity := ← Document.fieldOr fields "identity" ∅ Document.attrValues?
    attributes := ← Document.fieldOr fields "attributes" ∅ Document.attrValues?
    check := ← Document.fieldOr fields "check" false Document.flag? }

/-- Whether values are given together as well as apart. -/
def isMixed (task : Task) : Bool :=
  !task.params.isEmpty && !(task.identity.isEmpty && task.attributes.isEmpty)

def parse (text : String) (format : TaskFormat) : Except TaskFault Task :=
  match (format.read? text).bind (ofDocument? format.dialect) with
  | none => .error .malformed
  | some task => if task.isMixed then .error .mixed else .ok task

def load (files : Files) (path : String) : Except TaskError Task :=
  match files.readText? path with
  | none => .error (.unreadable path)
  | some text => (parse text (.ofPath path)).mapError (.invalid path)

/-- The desired state of the task; a check is a dry run. -/
def desired (task : Task) (declaration : Declaration) (check : Bool) : DesiredState :=
  let desired : DesiredState :=
    if task.params.isEmpty then ⟨task.identity, task.attributes, task.state, false⟩
    else .ofParams declaration task.params task.state
  { desired with dryRun := task.check || check }

end Task

end DirectoryReconcile
