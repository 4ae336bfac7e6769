import DirectoryReconcile.Json
import DirectoryReconcile.Binary64.Decimal
import DirectoryReconcile.Text.Hex
import DirectoryReconcile.Text.Pieces

/-!
# JSON text

The compact text of a value, without blanks, and an indented one with a line for each member.
Quotes, backslashes and control characters are escaped, every other character stands as it is.
-/

namespace DirectoryReconcile.Json

/-- A character inside a string. -/
def escaped (c : Char) : List Char :=
  if c = '"' then ['\\', '"']
  else if c = '\\' then ['\\', '\\']
  else if c = '\n' then ['\\', 'n']
  else if c = '\r' then ['\\', 'r']
  else if c = '\t' then ['\\', 't']
  else if c = '\x08' then ['\\', 'b']
  else if c = '\x0c' then ['\\', 'f']
  else if c.toNat < 0x20 then
    ['\\', 'u', '0', '0', Text.hexDigit (c.toNat / 16), Text.hexDigit (c.toNat % 16)]
  else [c]

def quoted (s : String) : String := String.ofList ('"' :: s.toList.flatMap escaped ++ ['"'])

mutual

/-- The text of a value without blanks. -/
def compact : Json → String
  | .null => "null"
  | .bool b => if b then "true" else "false"
  | .int n => toString n
  | .float x => x.toDecimal
  | .str s => quoted s
  | .arr items => "[" ++ Text.joinWith "," (compactItems items) ++ "]"
  | .obj fields => "\x7b" ++ Text.joinWith "," (compactFields fields) ++ "\x7d"

def compactItems : List Json → List String
  | [] => []
  | item :: rest => compact item :: compactItems rest

def compactFields : List (String × Json) → List String
  | [] => []
  | (key, value) :: rest => (quoted key ++ ":" ++ compact value) :: compactFields rest

end

def indentation (depth : Nat) : String := String.ofList (List.replicate (2 * depth) ' ')

/-- Members in brackets, each on a line of its own. -/
def bracketed (opening closing : String) (depth : Nat) (members : List String) : String :=
  if members.isEmpty then opening ++ closing
  else
    opening ++ "\n" ++ Text.joinWith ",\n" (members.map fun member ↦ indentation (depth + 1) ++ member) ++
      "\n" ++ indentation depth ++ closing

mutual

/-- The text of a value at a depth of indentation. -/
def indentedAt (depth : Nat) : Json → String
  | .arr items => bracketed "[" "]" depth (indentedItems (depth + 1) items)
  | .obj fields => bracketed "\x7b" "\x7d" depth (indentedFields (depth + 1) fields)
  | other => compact other

def indentedItems (depth : Nat) : List Json → List String
  | [] => []
  | item :: rest => indentedAt depth item :: indentedItems depth rest

def indentedFields (depth : Nat) : List (String × Json) → List String
  | [] => []
  | (key, value) :: rest =>
    (quoted key ++ ": " ++ indentedAt depth value) :: indentedFields depth rest

end

/-- The text of a value with two blanks of indentation for each level. -/
def indented (value : Json) : String := indentedAt 0 value

end DirectoryReconcile.Json
