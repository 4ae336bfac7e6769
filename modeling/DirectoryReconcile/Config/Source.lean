import DirectoryReconcile.Json

/-!
# Sources of configuration values

Every effective value remembers the layer that it comes from.
-/

namespace DirectoryReconcile.Config

inductive Source where
  | builtIn
  | file (path : String)
  | environment
  | commandLine
deriving DecidableEq, Repr, Inhabited

namespace Source

def kind : Source → String
  | .builtIn => "default"
  | .file _ => "file"
  | .environment => "environment"
  | .commandLine => "command_line"

def display : Source → String
  | .builtIn => "default"
  | .file path => "file " ++ path
  | .environment => "environment"
  | .commandLine => "command line"

def toJson : Source → Json
  | .file path => .obj [("detail", .str path), ("kind", .str "file")]
  | source => .obj [("kind", .str source.kind)]

end Source

/-- A value together with its source, and the variable that it was read from, if any. -/
structure Sourced (α : Type) where
  value : α
  source : Source
  varName : Option String
deriving DecidableEq, Repr

namespace Sourced

variable {α β : Type}

def builtIn (value : α) : Sourced α := ⟨value, .builtIn, none⟩

def ofVariable (value : α) (name : String) : Sourced α := ⟨value, .environment, some name⟩

def ofFile (value : α) (path : String) : Sourced α := ⟨value, .file path, none⟩

def ofCommandLine (value : α) : Sourced α := ⟨value, .commandLine, none⟩

def isBuiltIn (sourced : Sourced α) : Bool := sourced.source = .builtIn

/-- The first value if it was set explicitly, else the second one. -/
def or (first second : Sourced α) : Sourced α := if first.isBuiltIn then second else first

def map (f : α → β) (sourced : Sourced α) : Sourced β :=
  { sourced with value := f sourced.value }

/-- The text of a value with the variable or the source that it comes from. -/
def display (encode : α → String) (sourced : Sourced α) : String :=
  encode sourced.value ++ " (from " ++ sourced.varName.getD sourced.source.display ++ ")"

def toJson (encode : α → Json) (sourced : Sourced α) : Json :=
  .obj <| [("value", encode sourced.value), ("source", sourced.source.toJson)] ++
    Json.optionalField "var" (sourced.varName.map .str)

@[simp] theorem isBuiltIn_builtIn (value : α) : (builtIn value).isBuiltIn = true := by
  simp [builtIn, isBuiltIn]

@[simp] theorem isBuiltIn_ofVariable (value : α) (name : String) :
    (ofVariable value name).isBuiltIn = false := by
  simp [ofVariable, isBuiltIn]

end Sourced

end DirectoryReconcile.Config
