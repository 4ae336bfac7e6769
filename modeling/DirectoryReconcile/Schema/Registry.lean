import DirectoryReconcile.Schema.Builtin

/-!
# Registries

A registry finds the schema of an object type by its name.
-/

namespace DirectoryReconcile

structure Registry where
  schemas : Dict ObjectSchema
  named : ∀ name schema, schemas.get? name = some schema → schema.name = name

namespace Registry

def empty : Registry := ⟨∅, fun _ _ h ↦ by simp at h⟩

instance : EmptyCollection Registry := ⟨empty⟩

instance : Inhabited Registry := ⟨empty⟩

/-- Adds a schema, in place of one with the same name. -/
def register (registry : Registry) (schema : ObjectSchema) : Registry where
  schemas := registry.schemas.insert schema.name schema
  named name other h := by
    rw [Dict.get?_insert] at h
    split at h
    next heq => exact Option.some.inj h ▸ heq
    next => exact registry.named name other h

def ofList (schemas : List ObjectSchema) : Registry := schemas.foldl register ∅

def builtin : Registry := ofList ObjectSchema.builtins

def get (registry : Registry) (name : String) : Except Failure ObjectSchema :=
  match registry.schemas.get? name with
  | some schema => .ok schema
  | none => .error (.schema (.unknownType name))

def names (registry : Registry) : List String := registry.schemas.keys

end Registry

end DirectoryReconcile
