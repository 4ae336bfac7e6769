import DirectoryReconcile.Command
import DirectoryReconcile.CommandLine.Reading

/-!
# The command line

The arguments of the program name a command and say how it is run. Logging starts before the
command, so a log file that cannot be opened fails every command.
-/

namespace DirectoryReconcile

/-- How a command is run. -/
structure Options where
  configFile : Option String
  verbose : Bool
  logFormat : Option LogFormat
deriving DecidableEq, Repr

/-- How the program ends. -/
inductive Ending where
  | printed (output : Output)
  | failed (failure : CommandFailure)
  | connects (account : Account) (exchange : Exchange Output)
  | usage
  | help

namespace CommandLine

/-- The value of a switch on the deepest level that has it. -/
def deepest? (levels : List (Level × Found)) (switch : Switch) : Option String :=
  levels.reverse.findSome? fun (_, found) ↦ found.value? switch

def options (levels : List (Level × Found)) : Options where
  configFile := deepest? levels .config
  verbose := (deepest? levels .verbose).isSome
  logFormat := (deepest? levels .logFormat).bind LogFormat.ofText?

/-- The command of the last level, unless something that it needs is missing. -/
def command? (level : Level) (found : Found) : Option Command :=
  match level, found.words with
  | .ensure, _ => (found.value? .task).map fun task ↦ .ensure task (found.has .check)
  | .find, objectType :: arguments => some (.find objectType arguments)
  | .schema, words => some (.schema words.head?)
  | .taskSchema, _ => some .taskSchema
  | .filter, name :: input :: arguments =>
    some (.filter (found.has .list) (some name) (some input) arguments)
  | .filter, words =>
    if found.has .list then some (.filter true words.head? none []) else none
  | .showConfig, _ => some (.showConfig (found.has .json))
  | _, _ => none

/-- The options and the command that arguments say. -/
def parse (arguments : List String) : Except Stop (Options × Command) := do
  let levels ← read arguments
  match levels.getLast? with
  | none => throw .usage
  | some (level, found) =>
    match command? level found with
    | none => throw .usage
    | some command => return (options levels, command)

/-- How the program logs. -/
def logConfig (environment : Environment) (options : Options) : LogConfig :=
  let config := LogConfig.ofEnvironment environment LogLevel.info.name
  { config with
    level := if options.verbose then LogLevel.debug.name else config.level
    format := options.logFormat.getD config.format
    toStandardError := true }

def versionLine : String := "ipactl 0.3.0"

/-- Runs a command after logging was started. -/
def execute (environment : Environment) (files : Files) (options : Options) (command : Command) :
    Ending :=
  match (logConfig environment options).start files with
  | (.error error, _) => .failed (.ofError (.logging error))
  | (.ok (), files) =>
    match command.run ⟨environment, files, options.configFile⟩ with
    | .ok (.printed output) => .printed output
    | .ok (.connects account exchange) => .connects account exchange
    | .error error => .failed (.ofError error)

/-- Runs the program. -/
def run (environment : Environment) (files : Files) (arguments : List String) : Ending :=
  match parse arguments with
  | .error .usage => .usage
  | .error .help => .help
  | .error .version => .printed (.lines [versionLine])
  | .ok (options, command) => execute environment files options command

/-! ## Files that a run looks at -/

/-- The log file, the task file and the configuration file of a run. -/
def namedFiles (environment : Environment) (options : Options) (command : Command) : List String :=
  let task :=
    match command with
    | .ensure path _ => [path]
    | _ => []
  (logConfig environment options).file.toList ++ task ++
    (options.configFile.or (Config.PathExpansion.defaultPath? environment)).toList

/-- The password file of a run, as far as the files that are known say. -/
def passwordFile? (environment : Environment) (files : Files) (options : Options) : Option String :=
  match Config.load files environment options.configFile with
  | .ok config => config.settings.passwordFile.map (Config.PathExpansion.expand environment)
  | .error _ => none

/-- Every file that a run may look at, as far as the files that are known say. -/
def mentioned (environment : Environment) (files : Files) (arguments : List String) : List String :=
  match parse arguments with
  | .error _ => []
  | .ok (options, command) =>
    namedFiles environment options command ++ (passwordFile? environment files options).toList

end CommandLine

namespace Ending

/-- The exit status of the program; a run that would connect ends only with its exchange. -/
def status : Ending → Nat
  | .printed _ | .help | .connects _ _ => 0
  | .failed _ => 1
  | .usage => 2

end Ending

end DirectoryReconcile
