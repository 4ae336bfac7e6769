import DirectoryReconcile.Logging

/-!
# Switches and levels of the command line

A command line is read level by level: the program, then a command, then perhaps a command of that
command. Every level has its own switches besides the ones that hold everywhere, takes some number
of plain words, and names the levels below it.
-/

namespace DirectoryReconcile.CommandLine

inductive Switch where
  | config
  | verbose
  | logFormat
  | help
  | version
  | task
  | check
  | list
  | json
deriving DecidableEq, Repr

namespace Switch

def long : Switch → String
  | .config => "config"
  | .verbose => "verbose"
  | .logFormat => "log-format"
  | .help => "help"
  | .version => "version"
  | .task => "task"
  | .check => "check"
  | .list => "list"
  | .json => "json"

def short? : Switch → Option Char
  | .verbose => some 'v'
  | .help => some 'h'
  | .version => some 'V'
  | .task => some 't'
  | _ => none

def takesValue : Switch → Bool
  | .config | .logFormat | .task => true
  | _ => false

/-- Whether a text can be the value of a switch. -/
def accepts (value : String) : Switch → Bool
  | .logFormat => (LogFormat.ofText? value).isSome
  | _ => value ≠ ""

end Switch

inductive Level where
  | program
  | ensure
  | find
  | schema
  | taskSchema
  | filter
  | config
  | showConfig
deriving DecidableEq, Repr

namespace Level

def switches (level : Level) : List Switch :=
  [.config, .verbose, .logFormat, .help] ++
    match level with
    | .program => [.version]
    | .ensure => [.task, .check]
    | .filter => [.list]
    | .showConfig => [.json]
    | _ => []

/-- The levels below, by the word that leads there. -/
def below : Level → List (String × Level)
  | .program =>
    [("ensure", .ensure), ("find", .find), ("schema", .schema), ("task-schema", .taskSchema),
      ("filter", .filter), ("config", .config)]
  | .config => [("show", .showConfig)]
  | _ => []

/-- How many plain words a level takes, if there is a limit. -/
def limit? : Level → Option Nat
  | .find | .filter => none
  | .schema => some 1
  | _ => some 0

/-- How many plain words must come before a word may start with a dash, where one may. -/
def dashesAfter? : Level → Option Nat
  | .filter => some 2
  | _ => none

def long? (level : Level) (name : String) : Option Switch :=
  level.switches.find? fun switch ↦ switch.long = name

def short? (level : Level) (c : Char) : Option Switch :=
  level.switches.find? fun switch ↦ switch.short? = some c

end Level

end DirectoryReconcile.CommandLine
