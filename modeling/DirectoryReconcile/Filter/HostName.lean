import DirectoryReconcile.Text.Pieces

/-!
# Host names

The host part and the domain part of a dotted name, and the distinguished name of a domain.
-/

namespace DirectoryReconcile.HostName

/-- The part before the first dot. -/
def short (name : String) : String := (Text.splitAll '.' name).headD ""

/-- The part after the first dot. -/
def domain (name : String) : String := ((Text.splitFirst '.' name).map (·.2)).getD ""

/-- One component for each label of a domain. -/
def distinguishedName (domain : String) : String :=
  Text.joinWith "," ((Text.splitAll '.' domain).map ("dc=" ++ ·))

end DirectoryReconcile.HostName
