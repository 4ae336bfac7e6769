import DirectoryReconcile.Environment
import DirectoryReconcile.Failure.Catalogue
import DirectoryReconcile.Files
import DirectoryReconcile.Logging.Level

/-!
# Logging

How and where the program logs. Variables that say nothing useful leave the defaults as they are; a
log file is opened before the level is looked at, and either may be refused.
-/

namespace DirectoryReconcile

inductive LogFormat where
  | pretty
  | json
deriving DecidableEq, Repr

namespace LogFormat

def name : LogFormat → String
  | .pretty => "Pretty"
  | .json => "Json"

def words : List (String × LogFormat) :=
  [("pretty", .pretty), ("text", .pretty), ("human", .pretty), ("json", .json)]

/-- The word that a text says, in lower case. -/
def word (text : String) : String := Text.lowerAscii (Text.trim text)

def ofText? (text : String) : Option LogFormat := words.lookup (word text)

/-- What is said of a text that names no format. -/
def unknownMessage (text : String) : String :=
  "unknown log format '" ++ word text ++ "' (expected pretty or json)"

end LogFormat

inductive LogError where
  | filter (directive reason : String)
  | file (path : String)
  | alreadyInstalled
deriving DecidableEq, Repr

namespace LogError

def code (_ : LogError) : ErrorCode := .internalLoggingError

def message : LogError → String
  | .filter directive reason => "invalid log filter '" ++ directive ++ "': " ++ reason
  | .file path => "cannot open log file " ++ path
  | .alreadyInstalled => "a global logger is already installed"

end LogError

structure LogConfig where
  level : String
  format : LogFormat
  /-- Whether to log to the standard error stream, which keeps the output free for results. -/
  toStandardError : Bool
  file : Option String
deriving DecidableEq, Repr

namespace LogConfig

def ofLevel (level : String) : LogConfig := ⟨level, .pretty, false, none⟩

/-- The level, the format and the file that variables name, if they do. A file whose name is no text
is left out. -/
def ofEnvironment (environment : Environment) (level : String) : LogConfig where
  level := (((environment.get? "IPA_LOG_LEVEL").bind LogLevel.ofText?).map LogLevel.name).getD level
  format := ((environment.get? "IPA_LOG_FORMAT").bind LogFormat.ofText?).getD .pretty
  toStandardError := false
  file := environment.nonempty? "IPA_LOG_FILE"

/-- The directive that lets this program log at its level and others only warn. -/
def directive (config : LogConfig) : String :=
  "warn,ipa_common=" ++ config.level ++ ",ipactl=" ++ config.level

/-- Whether the directive has a meaning. -/
def hasLevel (config : LogConfig) : Bool :=
  LogLevel.all.any fun level ↦ Text.sameIgnoringCase level.name config.level

/-- Starts logging: opens the log file, then reads the directive. The files afterwards show the log
file even if the directive is refused. -/
def start (config : LogConfig) (files : Files) : Except LogError Unit × Files :=
  let opened :=
    match config.file with
    | none => some files
    | some path => files.openFile? path
  match opened with
  | none => (.error (.file (config.file.getD "")), files)
  | some files =>
    if config.hasLevel then (.ok (), files)
    else (.error (.filter config.directive "invalid level"), files)

end LogConfig

end DirectoryReconcile
