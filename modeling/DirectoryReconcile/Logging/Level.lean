import DirectoryReconcile.Text.Ascii
import DirectoryReconcile.Text.Blank

/-!
# Log levels

How much is logged, from everything to nothing.
-/

namespace DirectoryReconcile

inductive LogLevel where
  | trace
  | debug
  | info
  | warn
  | error
  | off
deriving DecidableEq, Repr

namespace LogLevel

def all : List LogLevel := [.trace, .debug, .info, .warn, .error, .off]

def name : LogLevel → String
  | .trace => "trace"
  | .debug => "debug"
  | .info => "info"
  | .warn => "warn"
  | .error => "error"
  | .off => "off"

/-- The level with this name, in any case of ASCII letters and with blanks around it. -/
def ofText? (text : String) : Option LogLevel :=
  all.find? fun level ↦ Text.sameIgnoringCase level.name (Text.trim text)

theorem ofText?_name (level : LogLevel) : ofText? level.name = some level := by
  cases level <;> decide

end LogLevel

end DirectoryReconcile
