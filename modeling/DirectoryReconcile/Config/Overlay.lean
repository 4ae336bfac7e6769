import DirectoryReconcile.Config.Error
import DirectoryReconcile.Config.File

/-!
# The layer of the environment

Variables override the settings below them, all of them or, when one of them is malformed, none.
-/

namespace DirectoryReconcile.Config

/-- Settings with the source of each. -/
structure Layered where
  settings : Settings
  sources : Sources

namespace Layered

def builtIn : Layered := ⟨.builtIn, .builtIn⟩

end Layered

/-- What the variables say about each setting, against the settings below. -/
structure Overlay where
  host : Reading String
  scheme : Reading Scheme
  port : Reading Nat
  validateCerts : Reading Bool
  timeout : Reading Nat
  user : Reading String
  password : Reading (Option String)
  passwordFile : Reading (Option String)
  logLevel : Reading String

namespace Overlay

/-- The scheme with this name, in any case. -/
def scheme? (s : String) : Except Complaint Scheme := do
  let name ← Override.choice (Scheme.all.map Scheme.name) s
  return (Scheme.ofName? name).getD .https

def read (environment : Environment) (settings : Settings) : Overlay where
  host := Override.read environment "HOST" Override.text settings.host
  scheme := Override.read environment "PROT" scheme? settings.scheme
  port := Override.read environment "PORT" Override.port settings.port
  validateCerts := Override.read environment "VALIDATE_CERTS" Override.flag settings.validateCerts
  timeout := Override.read environment "TIMEOUT_SECS" (Override.bounded 1 3600) settings.timeout
  user := Override.read environment "USER" Override.text settings.user
  password := Override.read environment "PASS" Override.optionalText settings.password
  passwordFile :=
    Override.read environment "PASS_FILE" (Override.optionalPath environment) settings.passwordFile
  logLevel := Override.read environment "LOG_LEVEL" Override.logLevel settings.logLevel

/-- What is wrong with the variables, in the order in which they are read. -/
def errors (overlay : Overlay) : List VariableError :=
  [overlay.host.error?, overlay.scheme.error?, overlay.port.error?, overlay.validateCerts.error?,
    overlay.timeout.error?, overlay.user.error?, overlay.password.error?,
    overlay.passwordFile.error?, overlay.logLevel.error?].filterMap id

/-- Whether a variable says a value for a setting. -/
def isExplicit (overlay : Overlay) : Setting → Bool
  | .host => !overlay.host.sourced.isBuiltIn
  | .scheme => !overlay.scheme.sourced.isBuiltIn
  | .port => !overlay.port.sourced.isBuiltIn
  | .validateCerts => !overlay.validateCerts.sourced.isBuiltIn
  | .timeout => !overlay.timeout.sourced.isBuiltIn
  | .user => !overlay.user.sourced.isBuiltIn
  | .password => !overlay.password.sourced.isBuiltIn
  | .passwordFile => !overlay.passwordFile.sourced.isBuiltIn
  | .logLevel => !overlay.logLevel.sourced.isBuiltIn

/-- The port after the overrides. A new scheme without a port of its own takes the port along when
that was the one of the old scheme. -/
def portOver (overlay : Overlay) (settings : Settings) : Nat :=
  let follows := !overlay.scheme.sourced.isBuiltIn && overlay.port.sourced.isBuiltIn &&
    settings.port = settings.scheme.port
  if follows then overlay.scheme.sourced.value.port else overlay.port.sourced.value

/-- The settings after the overrides. -/
def settingsOver (overlay : Overlay) (settings : Settings) : Settings where
  host := overlay.host.sourced.value
  port := overlay.portOver settings
  scheme := overlay.scheme.sourced.value
  validateCerts := overlay.validateCerts.sourced.value
  timeout := overlay.timeout.sourced.value
  user := overlay.user.sourced.value
  password := overlay.password.sourced.value
  passwordFile := overlay.passwordFile.sourced.value
  logLevel := overlay.logLevel.sourced.value

/-- The sources after the overrides. -/
def sourcesOver (overlay : Overlay) (sources : Sources) : Sources :=
  sources.mark .environment overlay.isExplicit

end Overlay

namespace Layered

/-- Overlays the variables of an environment. -/
def overlay (environment : Environment) : ExceptT Error (StateM Layered) Unit := do
  let below ← get
  let overlay := Overlay.read environment below.settings
  if overlay.errors.isEmpty then
    set (⟨overlay.settingsOver below.settings, overlay.sourcesOver below.sources⟩ : Layered)
  else throw (.environment overlay.errors)

end Layered

end DirectoryReconcile.Config
