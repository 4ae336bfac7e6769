import DirectoryReconcile.Json
import DirectoryReconcile.Masking

/-!
# Settings of the client

How the service is reached, as whom, and how much is logged. Every setting has a name with the
section it stands in, and settings without a value are left out of what is shown.
-/

namespace DirectoryReconcile.Config

inductive Scheme where
  | http
  | https
deriving DecidableEq, Repr

namespace Scheme

def all : List Scheme := [.http, .https]

def name : Scheme → String
  | .http => "http"
  | .https => "https"

def ofName? (name : String) : Option Scheme := all.find? fun scheme ↦ scheme.name = name

/-- The port that an address without a port means. -/
def port : Scheme → Nat
  | .http => 80
  | .https => 443

theorem ofName?_name (scheme : Scheme) : ofName? scheme.name = some scheme := by
  cases scheme <;> decide

end Scheme

inductive Section where
  | auth
  | general
  | server
deriving DecidableEq, Repr

namespace Section

def all : List Section := [.auth, .general, .server]

def name : Section → String
  | .auth => "auth"
  | .general => "general"
  | .server => "server"

end Section

inductive Setting where
  | password
  | passwordFile
  | user
  | logLevel
  | host
  | port
  | scheme
  | timeout
  | validateCerts
deriving DecidableEq, Repr

namespace Setting

/-- Every setting, in ascending order of the names. -/
def all : List Setting :=
  [.password, .passwordFile, .user, .logLevel, .host, .port, .scheme, .timeout, .validateCerts]

def part : Setting → Section
  | .password | .passwordFile | .user => .auth
  | .logLevel => .general
  | .host | .port | .scheme | .timeout | .validateCerts => .server

/-- The name of a setting in its section. -/
def key : Setting → String
  | .password => "password"
  | .passwordFile => "password_file"
  | .user => "user"
  | .logLevel => "log_level"
  | .host => "host"
  | .port => "port"
  | .scheme => "protocol"
  | .timeout => "timeout_secs"
  | .validateCerts => "validate_certs"

def name (setting : Setting) : String := setting.part.name ++ "." ++ setting.key

def ofName? (name : String) : Option Setting := all.find? fun setting ↦ setting.name = name

end Setting

structure Settings where
  host : String
  port : Nat
  scheme : Scheme
  validateCerts : Bool
  /-- How many seconds a request may take. -/
  timeout : Nat
  user : String
  password : Option String
  passwordFile : Option String
  logLevel : String
deriving DecidableEq, Repr

namespace Settings

/-- The settings of a client that nobody has configured. -/
def builtIn : Settings where
  host := "ipa.example.com"
  port := Scheme.https.port
  scheme := .https
  validateCerts := true
  timeout := 30
  user := "admin"
  password := none
  passwordFile := none
  logLevel := "info"

/-- The value of a setting, if it has one. -/
def value? (settings : Settings) : Setting → Option Json
  | .password => settings.password.map .str
  | .passwordFile => settings.passwordFile.map .str
  | .user => some (.str settings.user)
  | .logLevel => some (.str settings.logLevel)
  | .host => some (.str settings.host)
  | .port => some (.int settings.port)
  | .scheme => some (.str settings.scheme.name)
  | .timeout => some (.int settings.timeout)
  | .validateCerts => some (.bool settings.validateCerts)

/-- The settings of one section that have a value. -/
def sectionJson (settings : Settings) (part : Section) : Json :=
  .ofFields <| (Setting.all.filter fun setting ↦ setting.part = part).filterMap fun setting ↦
    (settings.value? setting).map fun value ↦ (setting.key, value)

def toJson (settings : Settings) : Json :=
  .ofFields (Section.all.map fun part ↦ (part.name, settings.sectionJson part))

/-- The settings with a mask in place of the password. -/
def redacted (settings : Settings) : Settings :=
  { settings with password := settings.password.map fun _ ↦ Masking.mark }

/-- The address of the service, with the port unless its scheme implies it. -/
def baseUrl (settings : Settings) : String :=
  let base := settings.scheme.name ++ "://" ++ settings.host
  if settings.port = settings.scheme.port then base else base ++ ":" ++ toString settings.port

end Settings

end DirectoryReconcile.Config
