import DirectoryReconcile.Environment
import DirectoryReconcile.Files
import DirectoryReconcile.Text.Alphanumeric

/-!
# Expansion of paths

Variables in a path are replaced by their values, and then a tilde in front by the user's own
directory. A path that names an unset variable stays as it is.
-/

namespace DirectoryReconcile.Config.PathExpansion

def isNameChar (c : Char) : Bool := Text.Alphanumeric.isAlphanumeric c || c = '_'

/-- What stands before and after the first colon and dash. -/
def cutDefault : List Char → List Char × Option (List Char)
  | [] => ([], none)
  | ':' :: '-' :: rest => ([], some rest)
  | c :: rest =>
    let (name, default) := cutDefault rest
    (c :: name, default)

/-- The name and the default between the braces of a reference; a default needs a name. -/
def withDefault (body : List Char) : List Char × Option (List Char) :=
  if (cutDefault body).1 = [] then (body, none) else cutDefault body

/-- What a reference in braces stands for. -/
def braced? (environment : Environment) (body : List Char) : Option (List Char) :=
  let (name, default) := withDefault body
  match environment.lookup? (String.ofList name) with
  | some value => some value.toList
  | none => default

/-- Replaces the references in a path: a dollar sign followed by a name, or by a name in braces.
Two dollar signs stand for one. -/
def references? (environment : Environment) (cs : List Char) : Option (List Char) :=
  match cs with
  | [] => some []
  | '$' :: '{' :: rest =>
    match Text.cutFirst '}' rest with
    | none => do return '$' :: '{' :: (← references? environment rest)
    | some (body, after) => do
      let value ← braced? environment body
      if after.length ≤ rest.length then return value ++ (← references? environment after) else none
  | '$' :: '$' :: rest => do return '$' :: (← references? environment rest)
  | '$' :: rest =>
    match rest.takeWhile isNameChar with
    | [] => do return '$' :: (← references? environment rest)
    | name => do
      let value ← environment.get? (String.ofList name)
      return value.toList ++ (← references? environment (rest.dropWhile isNameChar))
  | c :: rest => do return c :: (← references? environment rest)
termination_by cs.length
decreasing_by
  all_goals have := (List.dropWhile_sublist isNameChar (l := rest)).length_le
  all_goals simp only [List.length_cons]
  all_goals omega

/-- Replaces a tilde that stands alone or before a slash. -/
def home (environment : Environment) (path : String) : String :=
  match path.toList with
  | '~' :: rest =>
    if rest.head?.all (· = '/') then
      (environment.home?.map fun home ↦ home ++ String.ofList rest).getD path
    else path
  | _ => path

/-- The expanded path. A tilde that a variable brings to the front is no reference to the user's
own directory. -/
def expand (environment : Environment) (path : String) : String :=
  match references? environment path.toList with
  | none => path
  | some cs =>
    let replaced := String.ofList cs
    if path.toList.contains '$' && path.toList.head? ≠ some '~' then replaced
    else home environment replaced

/-- Whether a variable names a place by its path from the root. -/
def isAbsolute : Variable → Bool
  | .text path => Path.isAbsolute path
  | .binary bytes _ => bytes.data[0]? = some 0x2f

/-- Where configuration files of the user are kept. A directory whose name is no text is not known
here. -/
def configHome? (environment : Environment) : Option String :=
  match (environment.bindings.get? "XDG_CONFIG_HOME").filter isAbsolute with
  | some directory => directory.text?
  | none => environment.home?.map fun home ↦ Path.join home ".config"

/-- The configuration file that is read when no other is named. -/
def defaultPath? (environment : Environment) : Option String :=
  (configHome? environment).map fun base ↦ Path.join (Path.join base "ipactl") "config.toml"

end DirectoryReconcile.Config.PathExpansion
