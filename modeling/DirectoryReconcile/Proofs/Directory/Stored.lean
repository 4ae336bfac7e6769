import DirectoryReconcile.Directory.Entry
import DirectoryReconcile.Proofs.Dict
import DirectoryReconcile.Proofs.Schema.Reading
import DirectoryReconcile.Schema.Matching

/-!
# Stored scalars

A list of stored values that are scalars stays one when values are pushed and dropped. Which values
count as the same is a relation between scalars, for texts equality up to the case of letters.
-/

namespace DirectoryReconcile

namespace Scalar

/-- Whether two scalars count as the same value of a stored list. -/
def sameStored (a b : Scalar) : Bool := Stored.sameValue a.toJson b.toJson

/-- The list with a scalar at its end, unless it holds the same one. -/
def push (stored : List Scalar) (value : Scalar) : List Scalar :=
  if stored.any fun other ↦ sameStored other value then stored else stored ++ [value]

/-- The scalars that are the same as none of these. -/
def without (values stored : List Scalar) : List Scalar :=
  stored.filter fun value ↦ !values.any fun other ↦ sameStored value other

theorem alike_toJson (a b : Scalar) : a.toJson.alike b.toJson = decide (a = b) := by
  cases a <;> cases b <;> simp [toJson, Json.alike, Json.same, Int64.toInt_inj]

theorem sameStored_refl (a : Scalar) : sameStored a a = true := by
  simp [sameStored, Stored.sameValue, alike_toJson]

theorem sameStored_str (a b : String) : sameStored (.str a) (.str b) = sameName (.str a) (.str b) := by
  have htext (s : String) : Stored.text (Scalar.str s).toJson = s := rfl
  unfold sameStored
  rw [Stored.sameValue, alike_toJson, htext, htext, sameName]
  by_cases h : a = b
  · simp [h, Text.sameIgnoringCase_refl]
  · simp [h]

theorem mem_of_mem_push {stored : List Scalar} {value v : Scalar} (h : v ∈ push stored value) :
    v ∈ stored ∨ v = value := by
  unfold push at h
  split at h
  · exact .inl h
  · simpa using h

theorem subset_push {stored : List Scalar} {value v : Scalar} (h : v ∈ stored) :
    v ∈ push stored value := by
  unfold push
  split
  · exact h
  · exact List.mem_append_left _ h

/-- A value that is pushed is there afterwards, in one spelling or another. -/
theorem exists_mem_push (stored : List Scalar) (value : Scalar) :
    ∃ v ∈ push stored value, sameStored v value = true := by
  unfold push
  split
  next h => exact List.any_eq_true.1 h
  next => exact ⟨value, by simp, sameStored_refl value⟩

theorem nodup_push {stored : List Scalar} {value : Scalar} (h : stored.Nodup) :
    (push stored value).Nodup := by
  unfold push
  split
  next => exact h
  next hnone =>
    refine List.nodup_append.2 ⟨h, by simp, fun v hv w hw heq ↦ hnone ?_⟩
    rw [List.mem_singleton] at hw
    exact List.any_eq_true.2 ⟨v, hv, by rw [heq, hw, sameStored_refl]⟩

theorem mem_of_mem_foldl_push {values stored : List Scalar} {v : Scalar}
    (h : v ∈ values.foldl push stored) : v ∈ stored ∨ v ∈ values := by
  induction values generalizing stored with
  | nil => exact .inl h
  | cons head rest ih =>
    rcases ih h with h | h
    · rcases mem_of_mem_push h with h | rfl
      · exact .inl h
      · exact .inr List.mem_cons_self
    · exact .inr (List.mem_cons_of_mem _ h)

theorem subset_foldl_push {values stored : List Scalar} {v : Scalar} (h : v ∈ stored) :
    v ∈ values.foldl push stored := by
  induction values generalizing stored with
  | nil => exact h
  | cons head rest ih => exact ih (subset_push h)

theorem exists_mem_foldl_push (stored : List Scalar) {values : List Scalar} {value : Scalar}
    (h : value ∈ values) : ∃ v ∈ values.foldl push stored, sameStored v value = true := by
  induction values generalizing stored with
  | nil => simp at h
  | cons head rest ih =>
    rw [List.foldl_cons]
    rcases List.mem_cons.1 h with rfl | h
    · obtain ⟨v, hv, hsame⟩ := exists_mem_push stored value
      exact ⟨v, subset_foldl_push hv, hsame⟩
    · exact ih _ h

theorem nodup_foldl_push {values stored : List Scalar} (h : stored.Nodup) :
    (values.foldl push stored).Nodup := by
  induction values generalizing stored with
  | nil => exact h
  | cons head rest ih => exact ih (nodup_push h)

theorem mem_without {values stored : List Scalar} {v : Scalar} :
    v ∈ without values stored ↔ v ∈ stored ∧ ∀ w ∈ values, sameStored v w = false := by
  simp [without]

end Scalar

namespace Stored

theorem unwrap_toJson (value : Scalar) : unwrap value.toJson = value.toJson := by
  cases value <;> rfl

theorem unwrap_wrap (encoding : Encoding) (value : Scalar) :
    unwrap (encoding.wrap value.toJson) = value.toJson := by
  cases encoding with
  | plain => exact unwrap_toJson value
  | base64 => simp [Encoding.wrap, Encoding.wrapper?, unwrap, unwrapOne]
  | dnsName => simp [Encoding.wrap, Encoding.wrapper?, unwrap, unwrapOne]

theorem unwrap_encode (encoding : Encoding) (value : Scalar) :
    unwrap (encoding.encode value) = value.toJson := by
  unfold Encoding.encode
  split
  next h => cases value <;> simp_all [Scalar.isNull, Scalar.toJson, unwrap, unwrapOne]
  next => exact unwrap_wrap encoding value

theorem unwrapItems_encode (encoding : Encoding) (values : List Scalar) :
    unwrapItems (values.map encoding.encode) = values.map Scalar.toJson := by
  induction values with
  | nil => rfl
  | cons head rest ih => rw [List.map_cons, unwrapItems, unwrap_encode, ih, List.map_cons]

/-- What a value that was written into a request is stored as. -/
theorem unwrap_specEncode (spec : AttributeSpec) (value : AttrValue) :
    unwrap (spec.encode value) = value.toJson := by
  cases value with
  | scalar value => exact unwrap_encode spec.encoding value
  | list values => rw [AttributeSpec.encode, unwrap, unwrapItems_encode]; rfl

theorem foldl_push_map (values stored : List Scalar) :
    (values.map Scalar.toJson).foldl push (stored.map Scalar.toJson) =
      (values.foldl Scalar.push stored).map Scalar.toJson := by
  have hstep (stored : List Scalar) (value : Scalar) :
      push (stored.map Scalar.toJson) value.toJson = (Scalar.push stored value).map Scalar.toJson := by
    have hany : ((stored.map Scalar.toJson).any fun other ↦ sameValue other value.toJson) =
        stored.any fun other ↦ Scalar.sameStored other value := List.any_map
    unfold push
    rw [Scalar.push, hany]
    split <;> simp
  induction values generalizing stored with
  | nil => rfl
  | cons head rest ih => rw [List.map_cons, List.foldl_cons, hstep, ih, List.foldl_cons]

theorem without_map {raw : Json} {values : List Scalar}
    (hraw : AttributeSpec.elements raw = values.map Scalar.toJson) (stored : List Scalar) :
    without raw (stored.map Scalar.toJson) = (Scalar.without values stored).map Scalar.toJson := by
  unfold without
  rw [hraw, Scalar.without, List.filter_map]
  congr 1
  apply List.filter_congr
  intro value _
  simp only [Function.comp_apply, List.any_map]
  rfl

theorem elements_arr (items : List Json) : AttributeSpec.elements (.arr items) = items := rfl

theorem valuesOf_of_get? {attrs : Dict Json} {key : String} {items : List Json}
    (h : attrs.get? key = some (.arr items)) : valuesOf attrs key = items := by
  unfold valuesOf
  rw [h]
  rfl

theorem valuesOf_of_none {attrs : Dict Json} {key : String} (h : attrs.get? key = none) :
    valuesOf attrs key = [] := by
  unfold valuesOf
  rw [h]
  rfl

end Stored

end DirectoryReconcile
