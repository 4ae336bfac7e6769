import DirectoryReconcile.Text.Blank

/-!
# Certificates as text

A certificate's base64 text between a begin and an end line, in lines of 64 characters.
-/

namespace DirectoryReconcile.Certificate

def lineWidth : Nat := 64

def beginLine : String := "-----BEGIN CERTIFICATE-----"

def endLine : String := "-----END CERTIFICATE-----"

/-- The characters of a text that are not blank. -/
def body (text : String) : List Char := text.toList.filter fun c ↦ !Text.isBlank c

/-- Lines of at most `width + 1` characters. -/
def chunks (width : Nat) (cs : List Char) : List (List Char) :=
  match cs with
  | [] => []
  | c :: rest => (c :: rest.take width) :: chunks width (rest.drop width)
termination_by cs.length
decreasing_by simp only [List.length_drop, List.length_cons]; omega

def bodyLines (text : String) : List (List Char) := chunks (lineWidth - 1) (body text)

/-- The begin line, the lines of the body and the end line, each with a newline. -/
def wrap (text : String) : String :=
  String.join ((beginLine :: (bodyLines text).map String.ofList ++ [endLine]).map (· ++ "\n"))

end DirectoryReconcile.Certificate
