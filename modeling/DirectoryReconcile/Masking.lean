import DirectoryReconcile.Json
import DirectoryReconcile.Text.Ascii
import DirectoryReconcile.Text.Blank
import DirectoryReconcile.Text.Pieces

/-!
# Masking secrets

The secret positions of a value are the values of fields with a sensitive name, unless null, and
what follows the first equals sign of a text that starts with a sensitive name. Masking puts the
same mark in all of them.
-/

namespace DirectoryReconcile.Masking

def mark : String := "***"

/-- Names of attributes whose values are secret. -/
def sensitiveNames : List String :=
  ["password", "userpassword", "krbprincipalkey", "ipasecret", "ipaotpsecret", "ipatokenotpkey",
    "randompassword"]

/-- Whether a name ends with a sensitive one, ignoring the case of ASCII letters. -/
def isSensitive (name : String) : Bool :=
  sensitiveNames.any fun sensitive ↦ Text.endsWith (Text.lowerAscii name) sensitive

/-- Masks the value of a text `name=value` with a sensitive name. -/
def maskAssignment (s : String) : String :=
  match Text.splitFirst '=' s with
  | some (name, _) => if isSensitive name then name ++ "=" ++ mark else s
  | none => s

mutual

/-- The value with a mark in every secret position. -/
def mask : Json → Json
  | .obj fields => .obj (maskFields fields)
  | .arr items => .arr (maskItems items)
  | .str s => .str (maskAssignment s)
  | other => other

def maskItems : List Json → List Json
  | [] => []
  | item :: rest => mask item :: maskItems rest

def maskFields : List (String × Json) → List (String × Json)
  | [] => []
  | (key, value) :: rest =>
    (key, if isSensitive key && !value.isNull then .str mark else mask value) :: maskFields rest

end

/-- Keeps only the name of a cookie. -/
def maskCookie (cookie : String) : String :=
  match Text.splitFirst '=' cookie with
  | some (name, _) => Text.trim name ++ "=" ++ mark
  | none => mark

end DirectoryReconcile.Masking
