import DirectoryReconcile.Dict
import DirectoryReconcile.Text.Pieces

/-!
# Environments

The variables that a program is started with. A variable may be unset, or it is set to bytes. Most
of the time they are a text, perhaps an empty one; who asks for a text learns nothing of other bytes.
-/

namespace DirectoryReconcile

/-- What a variable is set to. -/
inductive Variable where
  | text (content : String)
  /-- Bytes that are no text. -/
  | binary (bytes : ByteArray) (noText : String.fromUTF8? bytes = none)

namespace Variable

/-- A variable that is set to these bytes. -/
def ofBytes (bytes : ByteArray) : Variable :=
  match h : String.fromUTF8? bytes with
  | some content => .text content
  | none => .binary bytes h

def text? : Variable → Option String
  | .text content => some content
  | .binary _ _ => none

end Variable

/-- The variables that are set, by name. -/
structure Environment where
  bindings : Dict Variable

namespace Environment

/-- An environment in which every variable is set to a text. -/
def ofTexts (texts : Dict String) : Environment := ⟨texts.mapValues .text⟩

instance : Coe (Dict String) Environment := ⟨ofTexts⟩

def ofList (texts : List (String × String)) : Environment := ofTexts (.ofList texts)

/-- The variables as a system lists them: a name, an equals sign and what the variable is set to,
with a zero byte at the end of each. A name that is no text cannot be asked for. -/
def ofListing (listing : ByteArray) : Environment :=
  ⟨.ofList <| (listing.toList.splitOn 0).filterMap fun entry ↦ do
    let (name, rest) := entry.span (· != 0x3d)
    return (← String.fromUTF8? name.toByteArray, .ofBytes (← rest.tail?).toByteArray)⟩

/-- The text that a variable is set to. A variable that is set to other bytes looks unset here. -/
def get? (environment : Environment) (name : String) : Option String :=
  (environment.bindings.get? name).bind Variable.text?

/-- What follows a name and an equals sign in the settings `name=text`. The name may reach into the
text as far as an equals sign there. -/
def lookup? (environment : Environment) (name : String) : Option String :=
  match Text.splitFirst '=' name with
  | none => environment.get? name
  | some (key, start) => do
    let rest ← (start ++ "=").toList.isPrefixOf? (← environment.get? key).toList
    return String.ofList rest

/-- The text of a variable, unless it is unset or empty. -/
def nonempty? (environment : Environment) (name : String) : Option String :=
  (environment.get? name).filter (· ≠ "")

/-- The user's own directory, if its name is a text. -/
def home? (environment : Environment) : Option String := environment.nonempty? "HOME"

end Environment

end DirectoryReconcile
