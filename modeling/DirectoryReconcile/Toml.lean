import DirectoryReconcile.Toml.Date
import DirectoryReconcile.Toml.Number
import DirectoryReconcile.Toml.Table
import DirectoryReconcile.Toml.Text

/-!
# Reading TOML documents

A document is a sequence of lines that assign values to keys or open tables. Arrays and inline
tables nest at most 80 deep.
-/

namespace DirectoryReconcile.Toml

/-- How deep arrays and inline tables may nest. -/
def nestingLimit : Nat := 80

/-- The characters of numbers, dates, times and words. -/
def isTokenChar (c : Char) : Bool := c.isAlphanum || c ∈ ['+', '-', '_', '.', ':']

/-- A token, with the time of day that follows a date after one blank. -/
def token (cs : List Char) : List Char × List Char :=
  let first := cs.takeWhile isTokenChar
  match cs.dropWhile isTokenChar with
  | ' ' :: c :: rest =>
    if ((date? first).any fun date ↦ date.2.isEmpty) && Text.isDigit c then
      (first ++ ' ' :: (c :: rest).takeWhile isTokenChar, (c :: rest).dropWhile isTokenChar)
    else (first, ' ' :: c :: rest)
  | rest => (first, rest)

/-- The one field of a table that stands for a date or a time. -/
def momentKey : String := "$__toml_private_datetime"

/-- What a token stands for. -/
def ofToken? (token : List Char) : Option Document :=
  match token with
  | ['t', 'r', 'u', 'e'] => some (.flag true)
  | ['f', 'a', 'l', 's', 'e'] => some (.flag false)
  | _ =>
    match integer? token with
    | some n => some (.integer n)
    | none =>
      if isReal token then some .real
      else (moment? token).map fun text ↦ .table [(momentKey, .text text)]

/-- The members of a list after its opening bracket, with commas between them and perhaps after the
last one; blanks, line ends and comments stand anywhere. -/
def members? {α : Type} (close : Char) (member? : List Char → Option (α × List Char))
    (cs : List Char) : Option (List α × List Char) := do
  match ← skipTrivia? false cs with
  | [] => none
  | c :: rest =>
    if c = close then return ([], rest)
    else
      let (member, rest) ← member? (c :: rest)
      match ← skipTrivia? false rest with
      | [] => none
      | c :: rest =>
        if c = close then return ([member], rest)
        else if c = ',' && rest.length < cs.length then
          let (members, rest) ← members? close member? rest
          return (member :: members, rest)
        else none
termination_by cs.length
decreasing_by simp_all

/-- A dotted key, an equals sign and a value. -/
def assignment? (value? : List Char → Option (Document × List Char)) (cs : List Char) :
    Option ((List String × Document) × List Char) := do
  let (path, rest) ← path? cs
  match rest with
  | '=' :: rest =>
    let (value, rest) ← value? rest
    return ((path, value), rest)
  | _ => none

/-- The table of some assignments. -/
def inlineTable? (assignments : List (List String × Document)) : Option Document := do
  let entries ← assignments.foldlM (fun entries (path, value) ↦ Entries.assign? path value entries) []
  return .table (Entries.toFields entries)

/-- A value in which arrays and inline tables nest at most `depth` deep. -/
def value? (depth : Nat) (cs : List Char) : Option (Document × List Char) :=
  match skipBlanks cs with
  | '[' :: rest =>
    match depth with
    | 0 => none
    | depth + 1 => (members? ']' (value? depth) rest).map fun (items, rest) ↦ (.list items, rest)
  | '{' :: rest =>
    match depth with
    | 0 => none
    | depth + 1 => do
      let (assignments, rest) ← members? '}' (assignment? (value? depth)) rest
      return (← inlineTable? assignments, rest)
  | '"' :: rest => (string? ('"' :: rest)).map fun (body, rest) ↦ (.text (String.ofList body), rest)
  | '\'' :: rest =>
    (string? ('\'' :: rest)).map fun (body, rest) ↦ (.text (String.ofList body), rest)
  | rest =>
    let (word, rest) := token rest
    (ofToken? word).map fun document ↦ (document, rest)

/-- The tables read so far and the path of the header that was opened last. -/
structure State where
  entries : Entries
  header : List String

/-- The path of a header and what follows its closing brackets. -/
def header? (closing : List Char) (cs : List Char) : Option (List String × List Char) := do
  let (path, rest) ← path? cs
  if closing.isPrefixOf rest then return (path, rest.drop closing.length) else none

/-- Reads one line that is not empty. -/
def line? (state : State) (cs : List Char) : Option (State × List Char) := do
  match cs with
  | '[' :: '[' :: rest =>
    let (path, rest) ← header? [']', ']'] rest
    return (⟨← Entries.openItem? path state.entries, path⟩, ← lineEnd? rest)
  | '[' :: rest =>
    let (path, rest) ← header? [']'] rest
    return (⟨← Entries.openTable? path state.entries, path⟩, ← lineEnd? rest)
  | _ =>
    let ((path, value), rest) ← assignment? (value? nestingLimit) cs
    let entries ← Entries.assignUnder? state.header path value state.entries
    return (⟨entries, state.header⟩, ← lineEnd? rest)

/-- Reads all lines. -/
def lines? (state : State) (cs : List Char) : Option State := do
  match ← skipTrivia? false cs with
  | [] => return state
  | c :: rest =>
    let (state, rest) ← line? state (c :: rest)
    if rest.length < cs.length then lines? state rest else none
termination_by cs.length

/-- Leaves out the mark of the byte order at the start. -/
def withoutMark : List Char → List Char
  | c :: rest => if c.toNat = 0xfeff then rest else c :: rest
  | [] => []

/-- The table that a document describes. -/
def read? (text : String) : Option Document := do
  let state ← lines? ⟨[], []⟩ (withoutMark text.toList)
  return .table (Entries.toFields state.entries)

end DirectoryReconcile.Toml
