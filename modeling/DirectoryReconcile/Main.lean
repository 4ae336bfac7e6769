import DirectoryReconcile.CommandLine

/-!
# The program

Collects the arguments, the environment and the files that a run mentions, and prints how it ends.
-/

open DirectoryReconcile

namespace DirectoryReconcile.Main

/-- The variables as the system lists them. -/
def readEnvironment : IO Environment := do
  return .ofListing (← IO.FS.readBinFile "/proc/self/environ")

/-- The node with this path; what is there but cannot be read counts as a directory. -/
def readNode (path : String) : IO (Option FileNode) := do
  try
    return some (.ofBytes (← IO.FS.readBinFile path))
  catch error =>
    match error with
    | .noFileOrDirectory _ _ _ => return none
    | _ => return some .directory

def readFiles (files : Files) (paths : List String) : IO Files := do
  let mut files := files
  for place in paths.flatMap Files.passed do
    if let some node ← readNode (Files.key place) then
      files := files.insert (Files.key place) node
  return files

/-- The files that a run mentions, the password file that its configuration names included. -/
def gather (environment : Environment) (arguments : List String) : IO Files := do
  let files ← readFiles ∅ (CommandLine.mentioned environment ∅ arguments)
  readFiles files (CommandLine.mentioned environment files arguments)

/-- Creates the log file of a run, if it names one. -/
def touchLog (environment : Environment) (arguments : List String) : IO Unit := do
  if let .ok (options, _) := CommandLine.parse arguments then
    if let some path := (CommandLine.logConfig environment options).file then
      try discard (IO.FS.Handle.mk path .append) catch _ => pure ()

def fail (failure : CommandFailure) : IO Unit := do
  (← IO.getStderr).putStr failure.entry.full

/-- A program without a connection cannot log in. -/
def notConnected : CommandFailure :=
  .ofError (.reconciliation (.remote (.transport RemoteError.loginMethod "no connection" none)))

def finish : Ending → IO UInt32
  | .printed output => do
    (← IO.getStdout).putStr output.text
    return 0
  | .failed failure => do
    fail failure
    return 1
  | .connects _ _ => do
    fail notConnected
    return 1
  | .usage => do
    (← IO.getStderr).putStr "usage: ipactl <command>\n"
    return 2
  | .help => do
    (← IO.getStdout).putStr "usage: ipactl <command>\n"
    return 0

end DirectoryReconcile.Main

def main (arguments : List String) : IO UInt32 := do
  let environment ← DirectoryReconcile.Main.readEnvironment
  let files ← DirectoryReconcile.Main.gather environment arguments
  DirectoryReconcile.Main.touchLog environment arguments
  DirectoryReconcile.Main.finish (CommandLine.run environment files arguments)
