import DirectoryReconcile.Text.Hex

/-!
# Unit names of paths

A path becomes a unit name byte by byte: slashes are written as dashes, letters, digits and
underscores stand for themselves, and every other byte is a hexadecimal escape. One leading slash
is dropped.
-/

namespace DirectoryReconcile.UnitName

def slash : UInt8 := 47

/-- Letters, digits and the underscore of ASCII. -/
def isPlain (byte : UInt8) : Bool :=
  (97 ≤ byte && byte ≤ 122) || (65 ≤ byte && byte ≤ 90) || (48 ≤ byte && byte ≤ 57) || byte = 95

def escapeByte (byte : UInt8) : List Char :=
  if byte = slash then ['-']
  else if isPlain byte then [Char.ofNat byte.toNat]
  else ['\\', 'x', Text.hexDigit (byte.toNat / 16), Text.hexDigit (byte.toNat % 16)]

def dropLeadingSlash : List UInt8 → List UInt8
  | [] => []
  | byte :: rest => if byte = slash then rest else byte :: rest

def bytes (path : String) : List UInt8 := path.toUTF8.data.toList

def escape (path : String) : String :=
  String.ofList ((dropLeadingSlash (bytes path)).flatMap escapeByte)

end DirectoryReconcile.UnitName
