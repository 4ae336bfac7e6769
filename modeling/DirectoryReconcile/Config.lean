import DirectoryReconcile.Config.Overlay

/-!
# The configuration of the client

The built-in settings, then a configuration file, then the variables of the environment. A file that
is named must exist; the one at the default place may be missing.
-/

namespace DirectoryReconcile

/-- Effective settings with their sources, and the file that was read, if any. -/
structure Config where
  settings : Config.Settings
  sources : Config.Sources
  file : Option String

namespace Config

namespace Settings

/-- The first value of the settings that cannot be used. -/
def check (settings : Settings) : Except Error Unit :=
  if Text.trim settings.host = "" then .error (.invalid .host .empty)
  else if settings.host.toList.contains '/' then .error (.invalid .host .address)
  else if settings.port = 0 then .error (.invalid .port .noPort)
  else if settings.timeout = 0 then .error (.invalid .timeout .notPositive)
  else if Text.trim settings.user = "" then .error (.invalid .user .empty)
  else .ok ()

def isLineEnd (c : Char) : Bool := c = '\r' || c = '\n'

/-- The password in a file: its text without line ends at the end, which must leave something. -/
def passwordIn (files : Files) (path : String) : Except Error String :=
  match files.readText? path with
  | none => .error (.unreadable path)
  | some text =>
    let password := String.ofList (Text.dropEndWhile isLineEnd text.toList)
    if password = "" then .error .noPassword else .ok password

/-- The password itself, or else the one in the password file. -/
def resolvePassword (settings : Settings) (environment : Environment) (files : Files) :
    Except Error String :=
  match settings.password, settings.passwordFile with
  | some password, _ => .ok password
  | none, some path => passwordIn files (PathExpansion.expand environment path)
  | none, none => .error .noPassword

end Settings

/-- The settings that the text of a file states. -/
def parse (text path : String) : Except Error Settings :=
  match Settings.ofText? text with
  | some settings => .ok settings
  | none => .error (.malformed path)

/-- The layer of a file over the built-in settings. -/
def readFile (files : Files) (path : String) : Except Error Layered :=
  match files.readText? path with
  | none => .error (.unreadable path)
  | some text =>
    match Toml.read? text with
    | none => .error (.malformed path)
    | some document =>
      match Settings.ofDocument? document with
      | none => .error (.malformed path)
      | some settings => .ok ⟨settings, fileSources document path⟩

/-- The layers below the environment, and the file that was read, if any. -/
def readLayers (files : Files) (environment : Environment) (path? : Option String) :
    Except Error (Layered × Option String) :=
  match path?.or (PathExpansion.defaultPath? environment) with
  | none => .ok (.builtIn, none)
  | some path =>
    if files.exists? path then (readFile files path).map fun layered ↦ (layered, some path)
    else if path?.isSome then .error (.notFound path)
    else .ok (.builtIn, none)

/-- Loads the configuration from a named file or the one at the default place. -/
def load (files : Files) (environment : Environment) (path? : Option String) :
    Except Error Config := do
  let (below, file) ← readLayers files environment path?
  let (result, layered) := (Layered.overlay environment).run below
  result
  layered.settings.check
  return ⟨layered.settings, layered.sources, file⟩

/-! ## Display -/

def sourcesJson (sources : Sources) : Json :=
  .ofDict (sources.mapValues Source.toJson)

/-- The configuration with the source of every setting and a mask in place of the password. -/
def toJson (config : Config) : Json :=
  .ofFields [("file", Json.ofOption .str config.file), ("base_url", .str config.settings.baseUrl),
    ("config", config.settings.redacted.toJson), ("sources", sourcesJson config.sources)]

/-- A line that shows the setting with a name and its source. -/
def line (config : Config) (name : String) (source : Source) : String :=
  let value? := (Setting.ofName? name).bind config.settings.redacted.value?
  name ++ " = " ++ value?.elim "(unset)" Json.compact ++ "  (" ++ source.display ++ ")"

/-- The lines that show a configuration. -/
def lines (config : Config) : List String :=
  ("# config file: " ++ config.file.getD "none (defaults and environment only)") ::
    ("# base url: " ++ config.settings.baseUrl) ::
      config.sources.entries.map fun (name, source) ↦ config.line name source

end Config

end DirectoryReconcile
