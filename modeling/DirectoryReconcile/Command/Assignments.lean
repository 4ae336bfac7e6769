import DirectoryReconcile.Failure
import DirectoryReconcile.Scalar
import DirectoryReconcile.Text.Blank

/-!
# Assignments on the command line

Arguments of the form `key=value` become attribute values by key. A key with several arguments gets
the list of their values, in the order of the arguments.
-/

namespace DirectoryReconcile.Assignments

/-- The key, without the blanks around it, and the value of one argument. -/
def split (argument : String) : Except Failure (String × String) :=
  match Text.splitFirst '=' argument with
  | none => .error (.validation argument .noAssignment)
  | some (key, value) =>
    if Text.trim key = "" then .error (.validation argument .emptyKey)
    else .ok (Text.trim key, value)

/-- Adds a value to those of its key. -/
def collect (values : Dict (List String)) (assignment : String × String) : Dict (List String) :=
  values.insert assignment.1 (((values.get? assignment.1).getD []) ++ [assignment.2])

/-- One value stands for itself, several are a list. -/
def ofTexts : List String → AttrValue
  | [value] => .scalar (.str value)
  | values => .list (values.map .str)

/-- The values of all arguments by key. -/
def parse (arguments : List String) : Except Failure (Dict AttrValue) := do
  let assignments ← arguments.mapM split
  return (assignments.foldl collect ∅).mapValues ofTexts

end DirectoryReconcile.Assignments
