import DirectoryReconcile.Config.PathExpansion
import DirectoryReconcile.Config.Source
import DirectoryReconcile.Logging.Level
import DirectoryReconcile.Text.Integer
import DirectoryReconcile.Text.LowerCase

/-!
# Overrides from the environment

A variable overrides the value of the layer below when it is set to a text that says a value. A text
that says none is reported and leaves the value as it was.
-/

namespace DirectoryReconcile.Config

/-- What is wrong with the text of a variable. -/
inductive Complaint where
  | notOneOf (choices : List String)
  | notBoolean
  | notUnsigned
  | notLogLevel
  | outside (value least greatest : Nat)
deriving DecidableEq, Repr

structure VariableError where
  name : String
  text : String
  complaint : Complaint
deriving DecidableEq, Repr

namespace VariableError

def message (error : VariableError) : String :=
  let refused (expected : String) := error.name ++ "='" ++ error.text ++ "' is not " ++ expected
  match error.complaint with
  | .notOneOf choices => refused ("one of " ++ Text.joinWith "/" choices)
  | .notBoolean => refused "a boolean"
  | .notUnsigned => refused "an unsigned integer"
  | .notLogLevel => refused "a log level (trace..error, off)"
  | .outside value least greatest =>
    error.name ++ "=" ++ toString value ++ " is outside " ++ toString least ++ "..=" ++
      toString greatest

end VariableError

/-- A value after an override, and what was wrong with its variable. -/
structure Reading (α : Type) where
  sourced : Sourced α
  error? : Option VariableError

namespace Override

variable {α : Type}

/-- The variable for a name. -/
def variableName (name : String) : String := "IPA_" ++ name

/-- The value that a variable says, or else the fallback. -/
def read (environment : Environment) (name : String) (parse : String → Except Complaint α)
    (fallback : α) : Reading α :=
  let name := variableName name
  match environment.get? name with
  | none => ⟨.builtIn fallback, none⟩
  | some text =>
    match parse text with
    | .ok value => ⟨.ofVariable value name, none⟩
    | .error complaint => ⟨.builtIn fallback, some ⟨name, text, complaint⟩⟩

theorem read_of_unset {environment : Environment} {name : String}
    (h : environment.get? (variableName name) = none) (parse : String → Except Complaint α)
    (fallback : α) : read environment name parse fallback = ⟨.builtIn fallback, none⟩ := by
  simp [read, h]

theorem read_of_ok {environment : Environment} {name text : String}
    {parse : String → Except Complaint α} {value : α}
    (h : environment.get? (variableName name) = some text) (hparse : parse text = .ok value)
    (fallback : α) :
    read environment name parse fallback = ⟨.ofVariable value (variableName name), none⟩ := by
  simp [read, h, hparse]

theorem read_of_error {environment : Environment} {name text : String}
    {parse : String → Except Complaint α} {complaint : Complaint}
    (h : environment.get? (variableName name) = some text) (hparse : parse text = .error complaint)
    (fallback : α) :
    read environment name parse fallback =
      ⟨.builtIn fallback, some ⟨variableName name, text, complaint⟩⟩ := by
  simp [read, h, hparse]

/-! ## What a text says -/

def text (s : String) : Except Complaint String := .ok s

/-- Any text; the empty one takes a value away. -/
def optionalText (s : String) : Except Complaint (Option String) :=
  .ok (if s = "" then none else some s)

/-- Any path, with its references expanded; the empty one takes a value away. -/
def optionalPath (environment : Environment) (s : String) : Except Complaint (Option String) :=
  .ok (if s = "" then none else some (PathExpansion.expand environment s))

/-- One of some words, in any case. -/
def choice (choices : List String) (s : String) : Except Complaint String :=
  if Text.lower s ∈ choices then .ok (Text.lower s) else .error (.notOneOf choices)

def flagWords : List (String × Bool) :=
  [("1", true), ("true", true), ("yes", true), ("on", true),
    ("", false), ("0", false), ("false", false), ("no", false), ("off", false)]

def flag (s : String) : Except Complaint Bool :=
  match flagWords.lookup (Text.lowerAscii (Text.trim s)) with
  | some b => .ok b
  | none => .error .notBoolean

/-- A natural number of 64 bits between two bounds. -/
def bounded (least greatest : Nat) (s : String) : Except Complaint Nat :=
  match (Text.parseNat? (Text.trim s)).filter (· < Nat.pow 2 64) with
  | none => .error .notUnsigned
  | some n => if least ≤ n && n ≤ greatest then .ok n else .error (.outside n least greatest)

def port (s : String) : Except Complaint Nat := bounded 1 65535 s

def logLevel (s : String) : Except Complaint String :=
  match LogLevel.ofText? s with
  | some level => .ok level.name
  | none => .error .notLogLevel

end Override

end DirectoryReconcile.Config
