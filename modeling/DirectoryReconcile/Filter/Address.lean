import DirectoryReconcile.Text.Pieces

/-!
# Dotted addresses

Reversed octets and the zone for reverse look-ups. The octets are any texts between dots.
-/

namespace DirectoryReconcile.Address

def octets (address : String) : List String := Text.splitAll '.' address

/-- The octets in reverse order. -/
def reverse (address : String) : String := Text.joinWith "." (octets address).reverse

/-- The first four octets, with zeros for those that are missing. -/
def fourOctets (address : String) : List String :=
  let known := (octets address).take 4
  known ++ List.replicate (4 - known.length) "0"

def reversePadded (address : String) : String := Text.joinWith "." (fourOctets address).reverse

def reverseZone (network : String) : String := reverse network ++ ".in-addr.arpa."

def lastOctet (address : String) : String := (octets address).getLastD ""

end DirectoryReconcile.Address
