import DirectoryReconcile.Text.Hex

/-!
# TOML strings and blanks

Strings in quotation marks have escapes, strings in apostrophes have none, and both may run over
several lines between three marks. Control characters other than the tab stand nowhere.
-/

namespace DirectoryReconcile.Toml

def isBlank (c : Char) : Bool := c = ' ' || c = '\t'

def skipBlanks (cs : List Char) : List Char := cs.dropWhile isBlank

def isControl (c : Char) : Bool := (c.toNat < 0x20 && c ≠ '\t') || c.toNat = 0x7f

/-- Skips blanks, line ends and comments; `inComment` says whether a comment is open. -/
def skipTrivia? (inComment : Bool) : List Char → Option (List Char)
  | [] => some []
  | '\n' :: rest => skipTrivia? false rest
  | '\r' :: '\n' :: rest => skipTrivia? false rest
  | c :: rest =>
    if inComment then if isControl c then none else skipTrivia? true rest
    else if c = '#' then skipTrivia? true rest
    else if isBlank c then skipTrivia? false rest
    else some (c :: rest)

/-- What follows a line that holds nothing more than a comment. -/
def lineEnd? (cs : List Char) : Option (List Char) :=
  match skipBlanks cs with
  | [] => some []
  | '\n' :: rest => some rest
  | '\r' :: '\n' :: rest => some rest
  | '#' :: rest => skipTrivia? true rest
  | _ => none

/-- The number of exactly so many hexadecimal digits. -/
def hexNumber? : Nat → Nat → List Char → Option (Nat × List Char)
  | 0, n, rest => some (n, rest)
  | _ + 1, _, [] => none
  | digits + 1, n, c :: rest => do hexNumber? digits (16 * n + (← Text.hexValue? c)) rest

/-- The character with a code of so many hexadecimal digits. -/
def codePoint? (digits : Nat) (cs : List Char) : Option (Char × List Char) := do
  let (n, rest) ← hexNumber? digits 0 cs
  if n < 0xd800 || (0xdfff < n && n < 0x110000) then return (Char.ofNat n, rest) else none

/-- The character of an escape after its backslash. -/
def escape? : List Char → Option (Char × List Char)
  | 'b' :: rest => some ('\x08', rest)
  | 't' :: rest => some ('\t', rest)
  | 'n' :: rest => some ('\n', rest)
  | 'f' :: rest => some ('\x0c', rest)
  | 'r' :: rest => some ('\r', rest)
  | 'e' :: rest => some ('\x1b', rest)
  | '"' :: rest => some ('"', rest)
  | '\\' :: rest => some ('\\', rest)
  | 'x' :: rest => codePoint? 2 rest
  | 'u' :: rest => codePoint? 4 rest
  | 'U' :: rest => codePoint? 8 rest
  | _ => none

/-- The rest of a string in quotation marks. -/
def basic? (cs : List Char) : Option (List Char × List Char) :=
  match cs with
  | [] => none
  | '"' :: rest => some ([], rest)
  | '\\' :: rest => do
    let (c, after) ← escape? rest
    if after.length < rest.length + 1 then
      let (body, rest) ← basic? after
      return (c :: body, rest)
    else none
  | c :: rest => do
    if isControl c then none
    else
      let (body, rest) ← basic? rest
      return (c :: body, rest)
termination_by cs.length

/-- The rest of a string in apostrophes. -/
def literal? : List Char → Option (List Char × List Char)
  | [] => none
  | '\'' :: rest => some ([], rest)
  | c :: rest =>
    if isControl c then none else (literal? rest).map fun (body, rest) ↦ (c :: body, rest)

/-- Up to two more marks after the three that close a string belong to the string. -/
def closing (mark : Char) : List Char → List Char × List Char
  | a :: b :: rest =>
    if a = mark then if b = mark then ([a, b], rest) else ([a], b :: rest) else ([], a :: b :: rest)
  | [a] => if a = mark then ([a], []) else ([], [a])
  | [] => ([], [])

/-- What follows a backslash that stands at the end of a line, with the blanks of the next lines
left out. -/
def folded? (cs : List Char) : Option (List Char) :=
  let skip (rest : List Char) := rest.dropWhile fun c ↦ isBlank c || c = '\n' || c = '\r'
  match skipBlanks cs with
  | '\n' :: rest => some (skip rest)
  | '\r' :: '\n' :: rest => some (skip rest)
  | _ => none

/-- The rest of a string between three quotation marks. -/
def basicLines? (cs : List Char) : Option (List Char × List Char) :=
  match cs with
  | [] => none
  | '"' :: '"' :: '"' :: rest => some (closing '"' rest)
  | '\\' :: rest =>
    match folded? rest with
    | some after => if after.length < rest.length + 1 then basicLines? after else none
    | none => do
      let (c, after) ← escape? rest
      if after.length < rest.length + 1 then
        let (body, rest) ← basicLines? after
        return (c :: body, rest)
      else none
  | '\r' :: '\n' :: rest =>
    (basicLines? rest).map fun (body, rest) ↦ ('\r' :: '\n' :: body, rest)
  | c :: rest => do
    if isControl c && c ≠ '\n' then none
    else
      let (body, rest) ← basicLines? rest
      return (c :: body, rest)
termination_by cs.length

/-- The rest of a string between three apostrophes. -/
def literalLines? : List Char → Option (List Char × List Char)
  | [] => none
  | '\'' :: '\'' :: '\'' :: rest => some (closing '\'' rest)
  | '\r' :: '\n' :: rest =>
    (literalLines? rest).map fun (body, rest) ↦ ('\r' :: '\n' :: body, rest)
  | c :: rest =>
    if isControl c && c ≠ '\n' then none
    else (literalLines? rest).map fun (body, rest) ↦ (c :: body, rest)

/-- A line end right after the opening marks does not belong to the string. -/
def dropLineEnd : List Char → List Char
  | '\n' :: rest => rest
  | '\r' :: '\n' :: rest => rest
  | cs => cs

/-- A string of any kind; nothing at another character. -/
def string? : List Char → Option (List Char × List Char)
  | '"' :: '"' :: '"' :: rest => basicLines? (dropLineEnd rest)
  | '\'' :: '\'' :: '\'' :: rest => literalLines? (dropLineEnd rest)
  | '"' :: rest => basic? rest
  | '\'' :: rest => literal? rest
  | _ => none

def isBare (c : Char) : Bool := c.isAlphanum || c = '_' || c = '-'

/-- A key: a string on one line, or letters, digits, dashes and underscores. -/
def key? : List Char → Option (String × List Char)
  | '"' :: rest => (basic? rest).map fun (body, rest) ↦ (String.ofList body, rest)
  | '\'' :: rest => (literal? rest).map fun (body, rest) ↦ (String.ofList body, rest)
  | cs =>
    match cs.takeWhile isBare with
    | [] => none
    | bare => some (String.ofList bare, cs.dropWhile isBare)

/-- Keys with dots between them. -/
def path? (cs : List Char) : Option (List String × List Char) := do
  let (key, rest) ← key? (skipBlanks cs)
  match skipBlanks rest with
  | '.' :: rest =>
    if rest.length < cs.length then
      let (path, rest) ← path? rest
      return (key :: path, rest)
    else none
  | rest => return ([key], rest)
termination_by cs.length

end DirectoryReconcile.Toml
