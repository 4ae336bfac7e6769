import DirectoryReconcile.Schema.Attribute

/-!
# Wrapped values

Normalizers that take a value out of the object that the service wraps it in.
-/

namespace DirectoryReconcile.ValueNormalizer

/-- The field with this key of an object that has it; any other value as it is. -/
def unwrapField (key : String) (value : Json) : Json := (value.get? key).getD value

def unwrapBase64 : ValueNormalizer := ⟨"unwrap_base64", fun value ↦ .ok (unwrapField "__base64__" value)⟩

def unwrapDnsName : ValueNormalizer :=
  ⟨"unwrap_dns_name", fun value ↦ .ok (unwrapField "__dns_name__" value)⟩

end DirectoryReconcile.ValueNormalizer
