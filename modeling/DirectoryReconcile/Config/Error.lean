import DirectoryReconcile.Config.Override
import DirectoryReconcile.Config.Settings
import DirectoryReconcile.Failure.Catalogue

/-!
# Errors of a configuration

Why there is no usable configuration or no password.
-/

namespace DirectoryReconcile.Config

/-- Why the value of a setting cannot be used. -/
inductive Reason where
  | empty
  | address
  | noPort
  | notPositive
  | stated (text : String)
deriving DecidableEq, Repr

namespace Reason

def message : Reason → String
  | .empty => "must not be empty"
  | .address => "expected a host name, not a URL"
  | .noPort => "must be between 1 and 65535"
  | .notPositive => "must be positive"
  | .stated text => text

end Reason

inductive Error where
  | notFound (path : String)
  | unreadable (path : String)
  | malformed (path : String)
  | invalid (setting : Setting) (reason : Reason)
  | environment (errors : List VariableError)
  | noPassword
deriving DecidableEq, Repr

namespace Error

def code : Error → ErrorCode
  | .notFound _ => .configNotFound
  | .unreadable _ => .configReadError
  | .malformed _ => .configParseError
  | .invalid _ _ => .configInvalidValue
  | .environment _ => .configEnvError
  | .noPassword => .configMissingPassword

def message : Error → String
  | .notFound path => "config file not found: " ++ path
  | .unreadable path => "failed to read " ++ path
  | .malformed path => "failed to parse " ++ path
  | .invalid setting reason => "invalid value for " ++ setting.name ++ ": " ++ reason.message
  | .environment errors =>
    "invalid environment overrides: " ++ Text.joinWith "; " (errors.map VariableError.message)
  | .noPassword =>
    "no password configured (set auth.password, auth.password_file or IPA_PASS)"

end Error

end DirectoryReconcile.Config
