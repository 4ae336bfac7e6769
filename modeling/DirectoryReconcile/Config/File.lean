import DirectoryReconcile.Config.Settings
import DirectoryReconcile.Config.Source
import DirectoryReconcile.Toml

/-!
# Configuration files

The settings that a configuration file states, with the built-in ones for those it leaves out.
-/

namespace DirectoryReconcile.Config

/-- Sources by the names of what comes from them. -/
abbrev Sources := Dict Source

namespace Sources

/-- The source of a setting; what is not named is built in. -/
def of (sources : Sources) (setting : Setting) : Source :=
  (sources.get? setting.name).getD .builtIn

instance : CoeFun Sources fun _ ↦ Setting → Source := ⟨of⟩

/-- Names a source of some settings, in place of the ones that they had. -/
def mark (sources : Sources) (source : Source) (marked : Setting → Bool) : Sources :=
  sources.insertMany ((Setting.all.filter marked).map fun setting ↦ (setting.name, source))

/-- The sources before a layer was read. -/
def builtIn : Sources := mark ∅ .builtIn fun _ ↦ true

end Sources

namespace Section

/-- The settings of a section in the order in which a list gives them. -/
def settings : Section → List Setting
  | .auth => [.user, .password, .passwordFile]
  | .general => [.logLevel]
  | .server => [.host, .port, .scheme, .validateCerts, .timeout]

end Section

namespace Settings

/-- The fields of one section; a section that is left out has none. -/
def sectionFields? (sections : Dict Document) (part : Section) : Option (Dict Document) :=
  Document.fieldOr sections part.name ∅
    (Document.record? .toml (part.settings.map Setting.key))

/-- The settings that a document describes. Sections and settings without a meaning are ignored. -/
def ofDocument? (document : Document) : Option Settings := do
  let sections ← document.record? .toml ["server", "auth", "general"]
  let server ← sectionFields? sections .server
  let auth ← sectionFields? sections .auth
  let general ← sectionFields? sections .general
  let stated {α : Type} (fields : Dict Document) (setting : Setting) (default : α)
      (decode : Document → Option α) : Option α :=
    Document.fieldOr fields setting.key default decode
  return {
    host := ← stated server .host builtIn.host Document.text?
    port := ← stated server .port builtIn.port (Document.natural? 65535)
    scheme := ← stated server .scheme builtIn.scheme (Document.choice? .toml Scheme.ofName?)
    validateCerts := ← stated server .validateCerts builtIn.validateCerts Document.flag?
    timeout := ← stated server .timeout builtIn.timeout (Document.natural? (Nat.pow 2 64 - 1))
    user := ← stated auth .user builtIn.user Document.text?
    password := ← stated auth .password none fun value ↦ value.text?.map some
    passwordFile := ← stated auth .passwordFile none fun value ↦ value.text?.map some
    logLevel := ← stated general .logLevel builtIn.logLevel Document.text? }

/-- The settings of the text of a configuration file. -/
def ofText? (text : String) : Option Settings := (Toml.read? text).bind ofDocument?

end Settings

/-! ## What a file states -/

mutual

/-- Whether every integer of a document has at most 64 bits. -/
def isMarkable : Document → Bool
  | .integer n => (Json.signed64? n).isSome
  | .list items => areMarkable items
  | .table fields => fieldsMarkable fields
  | _ => true

def areMarkable : List Document → Bool
  | [] => true
  | item :: rest => isMarkable item && areMarkable rest

def fieldsMarkable : List (String × Document) → Bool
  | [] => true
  | (_, value) :: rest => isMarkable value && fieldsMarkable rest

end

/-- The value that a document states for a setting in the table of its section. -/
def stated? (document : Document) (setting : Setting) : Option Document := do
  (← document.tableField? setting.part.name).tableField? setting.key

/-- The sources after a file was read: the file is the source of what it states. A file with an
integer of more than 64 bits is not named as a source. -/
def fileSources (document : Document) (path : String) : Sources :=
  Sources.builtIn.mark (.file path) fun setting ↦
    isMarkable document && (stated? document setting).isSome

end DirectoryReconcile.Config
