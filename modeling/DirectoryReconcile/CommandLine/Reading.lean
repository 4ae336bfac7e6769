import DirectoryReconcile.CommandLine.Switch
import DirectoryReconcile.Text.Pieces

/-!
# Reading the arguments of the command line

Arguments are read from left to right. A switch counts once on each level, and its value stands
behind it or is the next argument, which then must not look like a switch. Two dashes end the
switches; on the level of filters, so does the first word that may start with a dash.
-/

namespace DirectoryReconcile.CommandLine

/-- Why reading ends early. -/
inductive Stop where
  | usage
  | help
  | version
deriving DecidableEq, Repr

/-- What was found on one level. -/
structure Found where
  switches : List (Switch × String)
  words : List String
deriving DecidableEq, Repr

namespace Found

def empty : Found := ⟨[], []⟩

def has (found : Found) (switch : Switch) : Bool := (found.switches.lookup switch).isSome

def value? (found : Found) (switch : Switch) : Option String := found.switches.lookup switch

/-- Notes a switch with its value, the empty text for one that takes none. -/
def set (found : Found) (switch : Switch) (value : String) : Except Stop Found :=
  if switch = .help then .error .help
  else if switch = .version then .error .version
  else if found.has switch || (switch.takesValue && !switch.accepts value) then .error .usage
  else .ok { found with switches := found.switches ++ [(switch, value)] }

/-- Takes a plain word. -/
def addWord (found : Found) (level : Level) (word : String) : Except Stop Found :=
  if level.limit?.any (· ≤ found.words.length) then .error .usage
  else .ok { found with words := found.words ++ [word] }

/-- Whether the next word may start with a dash, unless it is a switch. -/
def allowsDash (found : Found) (level : Level) : Bool :=
  level.dashesAfter?.any (· ≤ found.words.length)

/-- Whether every further argument is a word. -/
def isPastSwitches (found : Found) (level : Level) : Bool :=
  level.dashesAfter?.any (· < found.words.length)

end Found

/-- Whether an argument looks like one or more switches. -/
def isDashed (argument : String) : Bool :=
  argument.toList.head? = some '-' && argument ≠ "-"

/-- What an argument adds: to what was found, and perhaps a switch that waits for its value. -/
abbrev Step := Except Stop (Found × Option Switch)

/-- A switch that is written out, with its value after an equals sign. -/
def readLong (level : Level) (found : Found) (argument : String) : Step := do
  let body := String.ofList (argument.toList.drop 2)
  let (name, value?) :=
    match Text.splitFirst '=' body with
    | some (name, value) => (name, some value)
    | none => (body, none)
  match level.long? name with
  | none =>
    if found.allowsDash level then return (← found.addWord level argument, none)
    else throw .usage
  | some switch =>
    match switch.takesValue, value? with
    | true, some value => return (← found.set switch value, none)
    | true, none => return (found, some switch)
    | false, some _ => throw .usage
    | false, none => return (← found.set switch "", none)

/-- Switches of one letter each; the last may take what follows it as its value. -/
def readLetters (level : Level) (found : Found) : List Char → Step
  | [] => .ok (found, none)
  | c :: rest =>
    match level.short? c with
    | none => .error .usage
    | some switch =>
      if switch.takesValue then
        match rest with
        | [] => .ok (found, some switch)
        | '=' :: value => do return (← found.set switch (String.ofList value), none)
        | value => do return (← found.set switch (String.ofList value), none)
      else do
        let found ← found.set switch ""
        readLetters level found rest

/-- An argument that looks like switches. -/
def readDashed (level : Level) (found : Found) (argument : String) : Step :=
  match argument.toList with
  | '-' :: '-' :: _ => readLong level found argument
  | letters =>
    let letters := letters.drop 1
    if found.allowsDash level && letters.any fun c ↦ (level.short? c).isNone then do
      return (← found.addWord level argument, none)
    else readLetters level found letters

/-- Where the reading of a level stands. -/
structure Cursor where
  found : Found
  /-- The switch that waits for its value. -/
  waiting : Option Switch
  /-- Whether two dashes ended the switches. -/
  ended : Bool

namespace Cursor

def initial : Cursor := ⟨.empty, none, false⟩

end Cursor

/-- What was found on a level and on the ones below that the arguments lead to. -/
def readLevel (level : Level) (cursor : Cursor) : List String → Except Stop (List (Level × Found))
  | [] => if cursor.waiting.isSome then .error .usage else .ok [(level, cursor.found)]
  | argument :: rest =>
    match cursor.waiting with
    | some switch => do
      if isDashed argument then throw .usage
      readLevel level { cursor with found := ← cursor.found.set switch argument, waiting := none } rest
    | none =>
      if cursor.ended || cursor.found.isPastSwitches level then do
        readLevel level { cursor with found := ← cursor.found.addWord level argument } rest
      else if argument = "--" then readLevel level { cursor with ended := true } rest
      else if isDashed argument then do
        let (found, waiting) ← readDashed level cursor.found argument
        readLevel level { cursor with found := found, waiting := waiting } rest
      else
        match level.below.lookup argument with
        | some lower => do
          return (level, cursor.found) :: (← readLevel lower .initial rest)
        | none => do
          if argument = "help" && !level.below.isEmpty then throw .help
          readLevel level { cursor with found := ← cursor.found.addWord level argument } rest

/-- What the arguments of the program say, level by level. -/
def read (arguments : List String) : Except Stop (List (Level × Found)) :=
  readLevel .program .initial arguments

end DirectoryReconcile.CommandLine
