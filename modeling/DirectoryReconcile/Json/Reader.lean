import DirectoryReconcile.Json.Numeral
import DirectoryReconcile.Text.Hex

/-!
# Reading JSON text

A reader for one document. Arrays and objects nest at most 127 deep; the fields of an object are
kept as written, repeated keys included.
-/

namespace DirectoryReconcile.Json.Reader

/-- How deep arrays and objects may nest. -/
def nestingLimit : Nat := 127

def isSpace (c : Char) : Bool := c = ' ' || c = '\n' || c = '\t' || c = '\r'

def skipSpace (cs : List Char) : List Char := cs.dropWhile isSpace

/-- Four hexadecimal digits. -/
def unit? : List Char → Option (Nat × List Char)
  | a :: b :: c :: d :: rest => do
    let high := (← Text.hexValue? a) * 16 + (← Text.hexValue? b)
    let low := (← Text.hexValue? c) * 16 + (← Text.hexValue? d)
    return (high * 256 + low, rest)
  | _ => none

/-- The character of a unicode escape after its `u`; a high surrogate needs a low one after it. -/
def unicodeEscape? (cs : List Char) : Option (Char × List Char) := do
  let (high, rest) ← unit? cs
  if 0xd800 ≤ high && high ≤ 0xdbff then
    match rest with
    | '\\' :: 'u' :: rest =>
      let (low, rest) ← unit? rest
      if 0xdc00 ≤ low && low ≤ 0xdfff then
        return (Char.ofNat (0x10000 + (high - 0xd800) * 1024 + (low - 0xdc00)), rest)
      else none
    | _ => none
  else if 0xdc00 ≤ high && high ≤ 0xdfff then none
  else return (Char.ofNat high, rest)

/-- The character of an escape after its backslash. -/
def escape? : List Char → Option (Char × List Char)
  | '"' :: rest => some ('"', rest)
  | '\\' :: rest => some ('\\', rest)
  | '/' :: rest => some ('/', rest)
  | 'b' :: rest => some ('\x08', rest)
  | 'f' :: rest => some ('\x0c', rest)
  | 'n' :: rest => some ('\n', rest)
  | 'r' :: rest => some ('\r', rest)
  | 't' :: rest => some ('\t', rest)
  | 'u' :: rest => unicodeEscape? rest
  | _ => none

/-- The characters of a string after its opening quote, and what follows the closing one. -/
def stringBody? (cs : List Char) : Option (List Char × List Char) :=
  match cs with
  | [] => none
  | '"' :: rest => some ([], rest)
  | '\\' :: rest => do
    let (c, after) ← escape? rest
    if after.length < rest.length + 1 then
      let (body, rest) ← stringBody? after
      return (c :: body, rest)
    else none
  | c :: rest => do
    if c.toNat < 0x20 then none
    else
      let (body, rest) ← stringBody? rest
      return (c :: body, rest)
termination_by cs.length

/-- The members between an opening bracket and the bracket that closes the list, with commas
between them; each must take up some of the text. -/
def members? {α : Type} (close : Char) (member? : List Char → Option (α × List Char))
    (cs : List Char) : Option (List α × List Char) := do
  let (member, rest) ← member? cs
  match skipSpace rest with
  | ',' :: rest =>
    if rest.length < cs.length then
      let (members, rest) ← members? close member? rest
      return (member :: members, rest)
    else none
  | c :: rest => if c = close then return ([member], rest) else none
  | [] => none
termination_by cs.length

/-- A list of members that may be empty, after its opening bracket. -/
def listed? {α : Type} (close : Char) (member? : List Char → Option (α × List Char))
    (cs : List Char) : Option (List α × List Char) :=
  match skipSpace cs with
  | c :: rest => if c = close then some ([], rest) else members? close member? (c :: rest)
  | [] => none

/-- A key, a colon and a value. -/
def field? (value? : List Char → Option (Json × List Char)) (cs : List Char) :
    Option ((String × Json) × List Char) :=
  match skipSpace cs with
  | '"' :: rest => do
    let (key, rest) ← stringBody? rest
    match skipSpace rest with
    | ':' :: rest =>
      let (value, rest) ← value? rest
      return ((String.ofList key, value), rest)
    | _ => none
  | _ => none

/-- A value in which arrays and objects nest at most `depth` deep. -/
def value? : Nat → List Char → Option (Json × List Char)
  | depth, cs =>
    match skipSpace cs with
    | 'n' :: 'u' :: 'l' :: 'l' :: rest => some (.null, rest)
    | 't' :: 'r' :: 'u' :: 'e' :: rest => some (.bool true, rest)
    | 'f' :: 'a' :: 'l' :: 's' :: 'e' :: rest => some (.bool false, rest)
    | '"' :: rest => (stringBody? rest).map fun (body, rest) ↦ (.str (String.ofList body), rest)
    | '[' :: rest =>
      match depth with
      | 0 => none
      | depth + 1 => (listed? ']' (value? depth) rest).map fun (items, rest) ↦ (.arr items, rest)
    | '{' :: rest =>
      match depth with
      | 0 => none
      | depth + 1 =>
        (listed? '}' (field? (value? depth)) rest).map fun (fields, rest) ↦ (.obj fields, rest)
    | rest => Numeral.read? rest

end Reader

/-- The one value of a document that nests at most `depth` deep, with its fields as written. -/
def readNested? (depth : Nat) (text : String) : Option Json := do
  let (value, rest) ← Reader.value? depth text.toList
  if (Reader.skipSpace rest).isEmpty then some value else none

/-- The one value of a document, with its fields as written. -/
def read? (text : String) : Option Json := readNested? Reader.nestingLimit text

/-- The one value of a document. -/
def parse? (text : String) : Option Json := (read? text).map canonical

end DirectoryReconcile.Json
