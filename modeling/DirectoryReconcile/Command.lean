import DirectoryReconcile.Command.Assignments
import DirectoryReconcile.Command.Failure
import DirectoryReconcile.Config
import DirectoryReconcile.Ensure
import DirectoryReconcile.Schema.Description
import DirectoryReconcile.Schema.Registry
import DirectoryReconcile.Task.Schema

/-!
# Commands

What each command does with the environment and the files that it finds. Commands that talk to the
service stop where they would connect, with the account and the exchange to be run.
-/

namespace DirectoryReconcile

/-- What a command prints. -/
inductive Output where
  | document (value : Json)
  | lines (texts : List String)

namespace Output

/-- The printed text: an indented document or lines, with a line end after each. -/
def text : Output → String
  | .document value => value.indented ++ "\n"
  | .lines texts => String.join (texts.map (· ++ "\n"))

end Output

/-- What a command is run with. -/
structure Surroundings where
  environment : Environment
  files : Files
  /-- The configuration file that was named, if any. -/
  configFile : Option String

/-- The account that a command logs in with. -/
structure Account where
  settings : Config.Settings
  password : String

/-- How far a command gets by itself. -/
inductive CommandResult where
  | printed (output : Output)
  | connects (account : Account) (exchange : Exchange Output)

inductive Command where
  | ensure (task : String) (check : Bool)
  | find (objectType : String) (arguments : List String)
  | schema (objectType : Option String)
  | taskSchema
  | filter (list : Bool) (name input : Option String) (arguments : List String)
  | showConfig (json : Bool)
deriving DecidableEq, Repr

namespace Command

def getSchema (objectType : String) : Except CommandError ObjectSchema :=
  (Registry.builtin.get objectType).mapError .reconciliation

def loadConfig (surroundings : Surroundings) : Except CommandError Config :=
  (Config.load surroundings.files surroundings.environment surroundings.configFile).mapError .config

/-- The account that the configuration describes. -/
def account (surroundings : Surroundings) : Except CommandError Account := do
  let config ← loadConfig surroundings
  let password ←
    (config.settings.resolvePassword surroundings.environment surroundings.files).mapError .config
  return ⟨config.settings, password⟩

/-! ## Ensuring a state -/

def ensureExchange (declaration : Declaration) (desired : DesiredState) : Exchange Output := do
  let outcome ← Ensure.run declaration desired
  return .document outcome.render

def runEnsure (surroundings : Surroundings) (path : String) (check : Bool) :
    Except CommandError CommandResult := do
  let task ← (Task.load surroundings.files path).mapError .task
  let schema ← getSchema task.objectType
  let account ← account surroundings
  let desired := task.desired schema.toDeclaration check
  return .connects account (ensureExchange schema.toDeclaration desired)

/-! ## Finding an object -/

/-- A request for an identity; arguments must name its keys. -/
def identityRequest (declaration : Declaration) (arguments : List String) :
    Except Failure DesiredState := do
  let values ← Assignments.parse arguments
  values.keys.forM fun key ↦
    if declaration.isIdentity key then .ok ()
    else .error (.validation key (.noKeyOf declaration.name declaration.identityKeys))
  return { DesiredState.ofState .present false with identity := values }

/-- Whether an object was found, and the object. -/
def found (declaration : Declaration) (object : RemoteObject) : Json :=
  .ofFields [("found", .bool !object.isEmpty), (declaration.name, .ofDict object)]

def findExchange (declaration : Declaration) (desired : DesiredState) : Exchange Output := do
  let identity ← Exchange.ofExcept (Ensure.validate declaration desired)
  let object ← declaration.find identity
  return .document (found declaration object)

def runFind (surroundings : Surroundings) (objectType : String) (arguments : List String) :
    Except CommandError CommandResult := do
  let schema ← getSchema objectType
  let desired ← (identityRequest schema.toDeclaration arguments).mapError .reconciliation
  let account ← account surroundings
  return .connects account (findExchange schema.toDeclaration desired)

/-! ## Commands without a service -/

/-- A text with blanks after it up to a width. -/
def padded (width : Nat) (s : String) : String :=
  s ++ String.ofList (List.replicate (width - s.length) ' ')

/-- The line of an object type in the list of all. -/
def summary (declaration : Declaration) : String :=
  let managed := declaration.attributes.filter fun spec ↦ !spec.identity
  padded 10 declaration.name ++ " identity=" ++ Text.joinWith "," declaration.identityKeys ++
    "  attributes=" ++ toString managed.length

def runSchema : Option String → Except CommandError Output
  | some objectType => do return .document (← getSchema objectType).toJson
  | none => .ok <| .lines <|
    Registry.builtin.schemas.values.map fun schema ↦ summary schema.toDeclaration

def runFilter (list : Bool) (name input : Option String) (arguments : List String) :
    Except CommandError Output :=
  if list then .ok (.lines (Filter.all.map Filter.name))
  else
    match name, input with
    | some name, some input => do
      let result ← (Filter.applyNamed name input arguments).mapError .filter
      return .lines [result.display]
    | _, _ => .error (.reconciliation (.validation "filter" .noFilter))

def runShowConfig (surroundings : Surroundings) (json : Bool) : Except CommandError Output := do
  let config ← loadConfig surroundings
  return if json then .document config.toJson else .lines config.lines

def run (surroundings : Surroundings) : Command → Except CommandError CommandResult
  | .ensure task check => runEnsure surroundings task check
  | .find objectType arguments => runFind surroundings objectType arguments
  | .schema objectType => (runSchema objectType).map .printed
  | .taskSchema => .ok (.printed (.document TaskSchema.toJson))
  | .filter list name input arguments => (runFilter list name input arguments).map .printed
  | .showConfig json => (runShowConfig surroundings json).map .printed

end Command

end DirectoryReconcile
