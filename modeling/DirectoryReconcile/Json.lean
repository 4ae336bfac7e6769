import DirectoryReconcile.Binary64
import DirectoryReconcile.Dict

/-!
# JSON values

Integers are exact and apart from floating-point numbers. The fields of an object stand in a list:
a reader keeps them as written, and every function here that builds an object puts them in key
order, each key once.
-/

namespace DirectoryReconcile

inductive Json where
  | null
  | bool (b : Bool)
  | int (n : Int)
  | float (x : Binary64)
  | str (s : String)
  | arr (items : List Json)
  | obj (fields : List (String × Json))
deriving Inhabited, Repr

namespace Json

/-- Induction over a value, with everything that stands in a list or in an object taken as done. -/
@[elab_as_elim, induction_eliminator]
theorem induct {motive : Json → Prop} (null : motive .null) (bool : ∀ b, motive (.bool b))
    (int : ∀ n, motive (.int n)) (float : ∀ x, motive (.float x)) (str : ∀ s, motive (.str s))
    (arr : ∀ items, (∀ item ∈ items, motive item) → motive (.arr items))
    (obj : ∀ fields, (∀ field ∈ fields, motive field.2) → motive (.obj fields)) (value : Json) :
    motive value :=
  @Json.rec motive (fun items ↦ ∀ item ∈ items, motive item)
    (fun fields ↦ ∀ field ∈ fields, motive field.2) (fun field ↦ motive field.2)
    null bool int float str arr obj
    nofun (fun _ _ hitem hrest ↦ List.forall_mem_cons.2 ⟨hitem, hrest⟩)
    nofun (fun _ _ hfield hrest ↦ List.forall_mem_cons.2 ⟨hfield, hrest⟩)
    (fun _ _ hvalue ↦ hvalue) value

mutual

/-- Equality of values, field by field. -/
def same : Json → Json → Bool
  | .null, .null => true
  | .bool a, .bool b => a = b
  | .int a, .int b => a = b
  | .float a, .float b => a = b
  | .str a, .str b => a = b
  | .arr a, .arr b => sameItems a b
  | .obj a, .obj b => sameFields a b
  | _, _ => false

def sameItems : List Json → List Json → Bool
  | [], [] => true
  | a :: as, b :: bs => same a b && sameItems as bs
  | _, _ => false

def sameFields : List (String × Json) → List (String × Json) → Bool
  | [], [] => true
  | (k, a) :: as, (l, b) :: bs => k = l && same a b && sameFields as bs
  | _, _ => false

end

mutual

theorem eq_of_same : (a b : Json) → same a b = true → a = b
  | .null, b, h => by cases b <;> simp_all [same]
  | .bool a, b, h => by cases b <;> simp_all [same]
  | .int a, b, h => by cases b <;> simp_all [same]
  | .float a, b, h => by cases b <;> simp_all [same]
  | .str a, b, h => by cases b <;> simp_all [same]
  | .arr a, b, h => by
    cases b <;> simp only [same, Bool.false_eq_true] at h
    exact congrArg _ (eq_of_sameItems a _ h)
  | .obj a, b, h => by
    cases b <;> simp only [same, Bool.false_eq_true] at h
    exact congrArg _ (eq_of_sameFields a _ h)

theorem eq_of_sameItems : (a b : List Json) → sameItems a b = true → a = b
  | [], b, h => by cases b <;> simp_all [sameItems]
  | a :: as, b, h => by
    cases b with
    | nil => simp [sameItems] at h
    | cons b bs =>
      simp only [sameItems, Bool.and_eq_true] at h
      rw [eq_of_same a b h.1, eq_of_sameItems as bs h.2]

theorem eq_of_sameFields : (a b : List (String × Json)) → sameFields a b = true → a = b
  | [], b, h => by cases b <;> simp_all [sameFields]
  | (k, a) :: as, b, h => by
    cases b with
    | nil => simp [sameFields] at h
    | cons b bs =>
      simp only [sameFields, Bool.and_eq_true, decide_eq_true_eq] at h
      rw [h.1.1, eq_of_same a b.2 h.1.2, eq_of_sameFields as bs h.2]

end

mutual

theorem same_refl : (a : Json) → same a a = true
  | .null => rfl
  | .bool _ | .int _ | .float _ | .str _ => by simp [same]
  | .arr items => by simpa [same] using sameItems_refl items
  | .obj fields => by simpa [same] using sameFields_refl fields

theorem sameItems_refl : (a : List Json) → sameItems a a = true
  | [] => rfl
  | a :: as => by simp [sameItems, same_refl a, sameItems_refl as]

theorem sameFields_refl : (a : List (String × Json)) → sameFields a a = true
  | [] => rfl
  | (_, a) :: as => by simp [sameFields, same_refl a, sameFields_refl as]

end

instance : DecidableEq Json := fun a b ↦
  decidable_of_iff (same a b = true) ⟨eq_of_same a b, fun h ↦ h ▸ same_refl a⟩

mutual

/-- Equality in which the two floating-point zeros are equal. -/
def alike : Json → Json → Bool
  | .float a, .float b => a.sameNumber b
  | .arr a, .arr b => alikeItems a b
  | .obj a, .obj b => alikeFields a b
  | a, b => same a b

def alikeItems : List Json → List Json → Bool
  | [], [] => true
  | a :: as, b :: bs => alike a b && alikeItems as bs
  | _, _ => false

def alikeFields : List (String × Json) → List (String × Json) → Bool
  | [], [] => true
  | (k, a) :: as, (l, b) :: bs => k = l && alike a b && alikeFields as bs
  | _, _ => false

end

/-- An object with the entries of a dictionary. -/
def ofDict (dict : Dict Json) : Json := .obj dict.entries

/-- An object with these fields in key order; the last value of a key counts. -/
def ofFields (fields : List (String × Json)) : Json := ofDict (Dict.ofList fields)

/-- The fields of an object; any other value has none. -/
def fields : Json → Dict Json
  | .obj fields => Dict.ofList fields
  | _ => ∅

/-- The value of a field; values other than objects have no fields. -/
def get? : Json → String → Option Json
  | .obj fields, key => Dict.lookupEntry key fields
  | _, _ => none

/-- A field that is there when its value is. -/
def optionalField (key : String) (value : Option Json) : List (String × Json) :=
  (value.map fun json ↦ (key, json)).toList

def isNull : Json → Bool
  | .null => true
  | _ => false

theorem isNull_iff {value : Json} : value.isNull = true ↔ value = .null := by
  cases value <;> simp [isNull]

def asString? : Json → Option String
  | .str s => some s
  | _ => none

def asArray? : Json → Option (List Json)
  | .arr items => some items
  | _ => none

def ofStrings (texts : List String) : Json := .arr (texts.map .str)

def ofOption (f : α → Json) : Option α → Json
  | some a => f a
  | none => .null

/-- The number of 64 bits with a sign, when it is in their range. -/
def signed64? (n : Int) : Option Int64 :=
  if -Int.pow 2 63 ≤ n ∧ n < Int.pow 2 63 then some (Int64.ofInt n) else none

def asSigned64? : Json → Option Int64
  | .int n => signed64? n
  | _ => none

mutual

/-- The value with the fields of every object in key order, of a repeated key the last one. -/
def canonical : Json → Json
  | .arr items => .arr (canonicalItems items)
  | .obj fields => ofFields (canonicalFields fields)
  | other => other

def canonicalItems : List Json → List Json
  | [] => []
  | item :: rest => canonical item :: canonicalItems rest

def canonicalFields : List (String × Json) → List (String × Json)
  | [] => []
  | (key, value) :: rest => (key, canonical value) :: canonicalFields rest

end

end Json

end DirectoryReconcile
