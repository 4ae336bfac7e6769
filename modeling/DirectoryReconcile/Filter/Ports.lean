import DirectoryReconcile.Text.Pieces

/-!
# Published container ports

A port with an optional protocol, mapped to the same port of the host.
-/

namespace DirectoryReconcile.Ports

/-- `port:port`, with the text after the first slash as the protocol. -/
def mapping (spec : String) : String :=
  match Text.splitFirst '/' spec with
  | some (port, protocol) => port ++ ":" ++ port ++ "/" ++ protocol
  | none => spec ++ ":" ++ spec

def mappings (specs : List String) : List String := specs.map mapping

/-- One flag for each mapping, with blanks between them. -/
def flags (specs : List String) : String :=
  Text.joinWith " " ((mappings specs).map ("--publish=" ++ ·))

end DirectoryReconcile.Ports
