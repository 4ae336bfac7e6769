import DirectoryReconcile.Json
import DirectoryReconcile.Text.Pieces

/-!
# The catalogue of errors

Every failure that a user can see has one code. A code has a number, whose hundreds name its
category, a message and steps towards a remedy; an entry adds the text of the one occurrence.
-/

namespace DirectoryReconcile

inductive ErrorCategory where
  | config
  | transport
  | remote
  | schema
  | validation
  | internal
deriving DecidableEq, Repr

namespace ErrorCategory

def key : ErrorCategory → String
  | .config => "config"
  | .transport => "transport"
  | .remote => "remote"
  | .schema => "schema"
  | .validation => "validation"
  | .internal => "internal"

def title : ErrorCategory → String
  | .config => "Configuration"
  | .transport => "Transport"
  | .remote => "Remote"
  | .schema => "Schema"
  | .validation => "Validation"
  | .internal => "Internal"

def description : ErrorCategory → String
  | .config => "Configuration file, environment and task file issues"
  | .transport => "Connection, TLS and timeout issues talking to the server"
  | .remote => "Errors reported by the directory server"
  | .schema => "Inconsistent object type declarations"
  | .validation => "Requested state that cannot be applied to the object type"
  | .internal => "Internal errors that may indicate bugs"

end ErrorCategory

inductive ErrorCode where
  | configNotFound
  | configReadError
  | configParseError
  | configInvalidValue
  | configEnvError
  | configMissingPassword
  | taskReadError
  | taskParseError
  | transportLoginFailed
  | transportRequestFailed
  | remoteLoginRejected
  | remoteHttpStatus
  | remoteFault
  | schemaInvalid
  | schemaUnknownType
  | validationInvalidValue
  | validationFilterError
  | internalLoggingError
  | internalSerializationError
deriving DecidableEq, Repr

namespace ErrorCode

/-- Every code in ascending order of the numbers. -/
def all : List ErrorCode :=
  [.configNotFound,
    .configReadError,
    .configParseError,
    .configInvalidValue,
    .configEnvError,
    .configMissingPassword,
    .taskReadError,
    .taskParseError,
    .transportLoginFailed,
    .transportRequestFailed,
    .remoteLoginRejected,
    .remoteHttpStatus,
    .remoteFault,
    .schemaInvalid,
    .schemaUnknownType,
    .validationInvalidValue,
    .validationFilterError,
    .internalLoggingError,
    .internalSerializationError]

def number : ErrorCode → Nat
  | .configNotFound => 1
  | .configReadError => 2
  | .configParseError => 3
  | .configInvalidValue => 4
  | .configEnvError => 5
  | .configMissingPassword => 6
  | .taskReadError => 7
  | .taskParseError => 8
  | .transportLoginFailed => 100
  | .transportRequestFailed => 101
  | .remoteLoginRejected => 200
  | .remoteHttpStatus => 201
  | .remoteFault => 202
  | .schemaInvalid => 300
  | .schemaUnknownType => 301
  | .validationInvalidValue => 400
  | .validationFilterError => 401
  | .internalLoggingError => 500
  | .internalSerializationError => 501

def name : ErrorCode → String
  | .configNotFound => "CONFIG_NOT_FOUND"
  | .configReadError => "CONFIG_READ_ERROR"
  | .configParseError => "CONFIG_PARSE_ERROR"
  | .configInvalidValue => "CONFIG_INVALID_VALUE"
  | .configEnvError => "CONFIG_ENV_ERROR"
  | .configMissingPassword => "CONFIG_MISSING_PASSWORD"
  | .taskReadError => "TASK_READ_ERROR"
  | .taskParseError => "TASK_PARSE_ERROR"
  | .transportLoginFailed => "TRANSPORT_LOGIN_FAILED"
  | .transportRequestFailed => "TRANSPORT_REQUEST_FAILED"
  | .remoteLoginRejected => "REMOTE_LOGIN_REJECTED"
  | .remoteHttpStatus => "REMOTE_HTTP_STATUS"
  | .remoteFault => "REMOTE_FAULT"
  | .schemaInvalid => "SCHEMA_INVALID"
  | .schemaUnknownType => "SCHEMA_UNKNOWN_TYPE"
  | .validationInvalidValue => "VALIDATION_INVALID_VALUE"
  | .validationFilterError => "VALIDATION_FILTER_ERROR"
  | .internalLoggingError => "INTERNAL_LOGGING_ERROR"
  | .internalSerializationError => "INTERNAL_SERIALIZATION_ERROR"

def ofName? (name : String) : Option ErrorCode := all.find? fun code ↦ code.name = name

/-- The hundreds of the number name the category. -/
def category (code : ErrorCode) : ErrorCategory :=
  match code.number / 100 with
  | 0 => .config
  | 1 => .transport
  | 2 => .remote
  | 3 => .schema
  | 4 => .validation
  | _ => .internal

def message : ErrorCode → String
  | .configNotFound => "Configuration file not found"
  | .configReadError => "Configuration file could not be read"
  | .configParseError => "Configuration file is not valid TOML"
  | .configInvalidValue => "Configuration value is invalid"
  | .configEnvError => "Environment override could not be parsed"
  | .configMissingPassword => "No password configured for the directory account"
  | .taskReadError => "Task file could not be read"
  | .taskParseError => "Task file could not be parsed"
  | .transportLoginFailed => "Could not reach the directory server to log in"
  | .transportRequestFailed => "Request to the directory server did not complete"
  | .remoteLoginRejected => "Directory server rejected the login"
  | .remoteHttpStatus => "Directory server answered with an error status"
  | .remoteFault => "Directory server reported an error"
  | .schemaInvalid => "Object type metadata is inconsistent"
  | .schemaUnknownType => "Unknown object type"
  | .validationInvalidValue => "Requested state is invalid for this object type"
  | .validationFilterError => "Text filter could not be applied"
  | .internalLoggingError => "Logging could not be initialized"
  | .internalSerializationError => "Result could not be serialized"

def remediation : ErrorCode → List String
  | .configNotFound =>
    ["Pass --config with the path of an existing file",
      "Or omit --config to use built-in defaults and IPA_* environment variables"]
  | .configReadError =>
    ["Check the file permissions",
      "Check that the path points to a regular file"]
  | .configParseError =>
    ["Run 'ipactl config show' to see which file is loaded",
      "Fix the TOML syntax reported in the error detail"]
  | .configInvalidValue =>
    ["protocol must be 'http' or 'https'",
      "timeout_secs must be between 1 and 3600"]
  | .configEnvError =>
    ["Check the IPA_* environment variables named in the error detail",
      "Booleans accept 1/0, true/false, yes/no, on/off"]
  | .configMissingPassword =>
    ["Set IPA_PASS",
      "Or set auth.password or auth.password_file in the config file"]
  | .taskReadError => ["Check the task file path and permissions"]
  | .taskParseError =>
    ["Task files are TOML or JSON with 'type', 'state' and 'params'",
      "Run 'ipactl task-schema' for the full format"]
  | .transportLoginFailed =>
    ["Check that the server host and port are reachable",
      "Set validate_certs = false only for servers with self-signed certificates"]
  | .transportRequestFailed =>
    ["Re-run the task; reconciliation is safe to repeat",
      "Raise server.timeout_secs for slow servers"]
  | .remoteLoginRejected =>
    ["Check the user name and password",
      "Check that the account is not locked"]
  | .remoteHttpStatus =>
    ["Check the server logs for the failing request",
      "Re-run with -v to see the request body"]
  | .remoteFault =>
    ["Read the message reported by the server",
      "Calls issued before the failure were not rolled back; re-run to converge"]
  | .schemaInvalid => ["Fix the object type declaration named in the error detail"]
  | .schemaUnknownType => ["Run 'ipactl schema' to list the known object types"]
  | .validationInvalidValue =>
    ["Run 'ipactl schema <type>' to see the attributes and their types",
      "enabled/disabled states require an object type with an enable attribute"]
  | .validationFilterError =>
    ["Run 'ipactl filter --list' to see the available filters",
      "format_map placeholders are \x7b\x7d or \x7b0\x7d"]
  | .internalLoggingError =>
    ["Check that the log file directory is writable",
      "Unset IPA_LOG_FILE to log to stderr only"]
  | .internalSerializationError => ["Report this as a bug with the -v output"]

/-- The number with three digits, after the mark of this program. -/
def text (code : ErrorCode) : String :=
  let digits := toString code.number
  "IPA-E" ++ String.ofList (List.replicate (3 - digits.length) '0') ++ digits

def display (code : ErrorCode) : String := code.text ++ ": " ++ code.message

end ErrorCode

/-- A code with the text of one occurrence. -/
structure ErrorEntry where
  code : ErrorCode
  detail : Option String

namespace ErrorEntry

/-- The entry on one line. -/
def brief (entry : ErrorEntry) : String := "[" ++ entry.code.text ++ "] " ++ entry.code.message

/-- The remediation steps, numbered from one. -/
def steps (entry : ErrorEntry) : List String :=
  entry.code.remediation.mapIdx fun i step ↦ "  " ++ toString (i + 1) ++ ". " ++ step

/-- The entry with its detail and the steps towards a remedy. -/
def full (entry : ErrorEntry) : String :=
  let detail := (entry.detail.map fun text ↦ "  " ++ text).toList
  let lines := entry.brief :: detail ++ "" :: "Remediation steps:" :: entry.steps
  String.join (lines.map (· ++ "\n"))

def toJson (entry : ErrorEntry) : Json :=
  .obj <| [("code", .str entry.code.text), ("category", .str entry.code.category.key),
    ("message", .str entry.code.message), ("remediation", .ofStrings entry.code.remediation)] ++
    Json.optionalField "detail" (entry.detail.map .str)

end ErrorEntry

end DirectoryReconcile
