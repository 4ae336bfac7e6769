import DirectoryReconcile.Dict
import DirectoryReconcile.Text.Ascii
import DirectoryReconcile.Text.Pieces

/-!
# Files

The files and directories that a program can find. A path is walked one component at a time, and
every component but the last must be a directory. A path with a slash in front is walked from the
root, any other one from the working directory; what lies above the working directory is not known.
-/

namespace DirectoryReconcile

inductive FileNode where
  | text (content : String)
  /-- A file whose bytes are no text. -/
  | binary
  | directory
deriving DecidableEq, Repr

/-- Nodes by their path without dots. A directory that holds something may be left out. -/
abbrev Files := Dict FileNode

namespace Path

/-- A path and a name below it. -/
def join (base name : String) : String :=
  if base = "" || Text.endsWith base "/" then base ++ name else base ++ "/" ++ name

def isAbsolute (path : String) : Bool := path.toList.head? = some '/'

/-- The last component that is neither empty nor a dot. -/
def fileName? (path : String) : Option String :=
  match ((Text.splitAll '/' path).filter fun part ↦ part ≠ "" && part ≠ ".").getLast? with
  | some ".." => none
  | last => last

/-- What follows the last dot of the name, unless the name starts with that dot. -/
def extension? (path : String) : Option String := do
  let parts := Text.splitAll '.' (← fileName? path)
  if parts.length < 2 || parts.dropLast = [""] then none else parts.getLast?

/-- Whether a component can name a new file; a name has at most 255 bytes. -/
def isName (component : String) : Bool :=
  component ∉ ["", ".", ".."] && component.utf8ByteSize ≤ 255

end Path

namespace FileNode

/-- A file with these bytes, which are a text when they are its encoding. -/
def ofBytes (bytes : ByteArray) : FileNode :=
  match String.fromUTF8? bytes with
  | some content => .text content
  | none => .binary

end FileNode

namespace Files

variable (files : Files)

/-- The path of a place, which is the root if it has an empty component alone. -/
def key (components : List String) : String := Text.joinWith "/" components

/-- Whether a place has nothing above it. -/
def isTop (place : List String) : Bool := place = [] || place = [""]

/-- The node that components without dots lead to. -/
def node? (components : List String) : Option FileNode :=
  if isTop components then some .directory
  else
    match files.get? (key components) with
    | some node => some node
    | none =>
      if files.keys.any (String.isPrefixOf (key components ++ "/")) then some .directory else none

/-- Walks on from a place that must be a directory. -/
def walk? (place : List String) : List String → Option (List String)
  | [] => some place
  | component :: rest =>
    if files.node? place ≠ some .directory then none
    else if component = "" || component = "." then walk? place rest
    else if component = ".." then
      if place = [] then none else walk? (if isTop place then place else place.dropLast) rest
    else walk? (place ++ [component]) rest

/-- Where the walk along a path begins. -/
def start (path : String) : List String := if Path.isAbsolute path then [""] else []

/-- The place that a path leads to, which need not be there. -/
def place? (path : String) : Option (List String) :=
  if path = "" then none else files.walk? (start path) (Text.splitAll '/' path)

/-- The node that a path leads to. -/
def at? (path : String) : Option FileNode := (files.place? path).bind files.node?

/-- The places that a walk along a path comes by when every component is a directory. -/
def passed (path : String) : List (List String) :=
  let step (places : List (List String)) (component : String) : List (List String) :=
    let place := places.headD []
    if component = "" || component = "." then places
    else if component = ".." then (if isTop place then place else place.dropLast) :: places
    else (place ++ [component]) :: places
  ((Text.splitAll '/' path).foldl step [start path]).filter fun place ↦ !isTop place

def exists? (path : String) : Bool := (files.at? path).isSome

def isFile (path : String) : Bool :=
  match files.at? path with
  | some (.text _) | some .binary => true
  | _ => false

/-- The content of a text file. -/
def readText? (path : String) : Option String :=
  match files.at? path with
  | some (.text content) => some content
  | _ => none

/-- Opens a file for writing at its end, and creates it if there is none. -/
def openFile? (path : String) : Option Files :=
  if files.isFile path then some files
  else if files.exists? path then none
  else do
    let place ← files.place? path
    let name ← (Text.splitAll '/' path).getLast?
    if Path.isName name then some (files.insert (key place) (.text "")) else none

end Files

end DirectoryReconcile
