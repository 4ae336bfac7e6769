import DirectoryReconcile.Proofs.Ensure.Views
import DirectoryReconcile.Response

/-!
# Values in the shape of their attributes

Fitting goes through the attributes of a declaration in order and reshapes the value under the key
of each. Several attributes may have one key, and what one of them has made a scalar the next may
make a list again. The elements of a value that can be read stay the same in all of this, apart from
nulls, so that the canonical view of an object and its flag do not depend on whether it was fitted.
-/

namespace DirectoryReconcile

namespace Response

variable {declaration : Declaration} {specs : List AttributeSpec} {key : String}

/-! ## What fitting makes of a value -/

theorem fitValue_arr (items : List Json) : fitValue true (.arr items) = .arr items := by
  match items with
  | [] | [_] | _ :: _ :: _ => rfl

/-- Fitting a list to its attribute keeps its elements. -/
theorem elements_fitValue {encoding : Encoding} {scalars : List Scalar}
    (hscalars : ∀ v ∈ scalars, v ≠ .null) (hne : scalars ≠ []) (isList : Bool) :
    AttributeSpec.elements (fitValue isList (.arr (scalars.map fun v ↦ encoding.wrap v.toJson))) =
      scalars.map fun v ↦ encoding.wrap v.toJson := by
  match scalars with
  | [] => exact absurd rfl hne
  | [v] =>
    cases isList
    · exact AttributeSpec.elements_wrap encoding (hscalars v List.mem_cons_self)
    · rfl
  | _ :: _ :: _ => rfl

/-- What the attributes with a key make of its value, one after the other. -/
def fitted (specs : List AttributeSpec) (key : String) (raw : Json) : Json :=
  (specs.filter fun spec ↦ spec.responseKey = key).foldl
    (fun raw spec ↦ fitValue spec.isList raw) raw

theorem fitted_cons_of_ne {head : AttributeSpec} (hne : head.responseKey ≠ key) (raw : Json) :
    fitted (head :: specs) key raw = fitted specs key raw := by
  unfold fitted
  rw [List.filter_cons_of_neg (by simpa using hne)]

theorem fitted_cons_of_eq {head : AttributeSpec} (heq : head.responseKey = key) (raw : Json) :
    fitted (head :: specs) key raw = fitted specs key (fitValue head.isList raw) := by
  unfold fitted
  rw [List.filter_cons_of_pos (by simpa using heq), List.foldl_cons]

theorem fitted_of_not_mem (h : key ∉ specs.map (·.responseKey)) (raw : Json) :
    fitted specs key raw = raw := by
  induction specs with
  | nil => rfl
  | cons head rest ih =>
    rw [List.map_cons, List.mem_cons, not_or] at h
    rw [fitted_cons_of_ne (Ne.symm h.1), ih h.2]

/-- Where keys are told apart, only the attribute itself shapes the value under its key. -/
theorem fitted_of_mem (hnodup : (specs.map (·.responseKey)).Nodup) {spec : AttributeSpec}
    (hspec : spec ∈ specs) (raw : Json) :
    fitted specs spec.responseKey raw = fitValue spec.isList raw := by
  induction specs with
  | nil => simp at hspec
  | cons head rest ih =>
    rw [List.map_cons, List.nodup_cons] at hnodup
    rcases List.mem_cons.1 hspec with rfl | hspec
    · rw [fitted_cons_of_eq rfl, fitted_of_not_mem hnodup.1]
    · have hne : head.responseKey ≠ spec.responseKey := fun heq ↦
        hnodup.1 (heq ▸ List.mem_map_of_mem hspec)
      rw [fitted_cons_of_ne hne, ih hnodup.2 hspec]

theorem get?_fitAttribute (object : RemoteObject) (spec : AttributeSpec) (key : String) :
    (fitAttribute object spec).get? key =
      if spec.responseKey = key then (object.get? key).map (fitValue spec.isList)
      else object.get? key := by
  unfold fitAttribute
  split
  next value hvalue =>
    rw [Dict.get?_insert]
    split
    next heq => rw [← heq, hvalue, Option.map_some]
    next => rfl
  next hnone =>
    split
    next heq => rw [← heq, hnone, Option.map_none]
    next => rfl

theorem get?_fit (declaration : Declaration) (object : RemoteObject) (key : String) :
    (fit declaration object).get? key =
      (object.get? key).map (fitted declaration.attributes key) := by
  unfold fit
  induction declaration.attributes generalizing object with
  | nil =>
    have hid : fitted [] key = id := rfl
    rw [List.foldl_nil, hid, Option.map_id, id]
  | cons head rest ih =>
    rw [List.foldl_cons, ih, get?_fitAttribute]
    split
    next heq =>
      rw [Option.map_map]
      exact congrArg (Option.map · _) (funext fun raw ↦ (fitted_cons_of_eq heq raw).symm)
    next hne => exact congrArg (Option.map · _) (funext fun raw ↦ (fitted_cons_of_ne hne raw).symm)

/-- A fitted object has the keys of the object, in their order. -/
theorem fit_eq (declaration : Declaration) (object : RemoteObject) :
    fit declaration object =
      object.filterMap fun key raw ↦ some (fitted declaration.attributes key raw) := by
  ext key
  rw [get?_fit, Dict.get?_filterMap]
  cases object.get? key <;> rfl

end Response

/-! ## What a fitted value is read as -/

namespace AttributeSpec

open Response

variable {spec : AttributeSpec} {raw : Json} {value : AttrValue}
  (hknown : ∀ normalizer ∈ spec.normalizer, normalizer ∈ ValueNormalizer.known)

include hknown

/-- Normalizers leave nulls and lists as they are. -/
theorem normalizeElement_eq_coerce (hraw : raw = .null ∨ ∃ items, raw = .arr items) :
    spec.normalizeElement raw = spec.kind.coerce raw := by
  unfold normalizeElement
  cases hnormalizer : spec.normalizer with
  | none => rfl
  | some normalizer =>
    have happly : normalizer.apply raw = .ok raw := by
      have hmem := ValueNormalizer.mem_known_iff.1 (hknown normalizer hnormalizer)
      rcases hraw with rfl | ⟨items, rfl⟩ <;> rcases hmem with rfl | rfl | rfl <;> rfl
    simp only [happly]

theorem normalizeElement_null : spec.normalizeElement .null = .ok .null := by
  rw [normalizeElement_eq_coerce hknown (.inl rfl)]
  rfl

/-- A list among the elements of a value cannot be read. -/
theorem normalizeElement_arr_ne_ok (items : List Json) (v : Scalar) :
    spec.normalizeElement (.arr items) ≠ .ok v := by
  rw [normalizeElement_eq_coerce hknown (.inr ⟨items, rfl⟩)]
  cases spec.kind <;> simp [ValueKind.coerce, Json.isNull, ValueKind.textOf, ValueKind.integerOf,
    ValueKind.flagOf]

/-- A list of one is read as what it holds, unless that is a list. -/
theorem canonical_singleton {only : Json} (h : ∀ items, only ≠ .arr items) :
    spec.canonical (.arr [only]) = spec.canonical only := by
  cases only with
  | null =>
    have hnone : [Json.null].mapM spec.normalizeElement = .ok [.null] := by
      rw [mapM_eq_ok]
      exact .cons (normalizeElement_null hknown) .nil
    unfold canonical
    simp only [elements, hnone, bind, Except.bind]
    rfl
  | arr items => exact absurd rfl (h items)
  | bool | int | float | str | obj => rfl

/-- Whatever the shape that a value is given, it is read as before. -/
theorem canonical_fitValue (isList : Bool) (h : spec.canonical raw = .ok value) :
    spec.canonical (fitValue isList raw) = .ok value := by
  cases raw with
  | null => exact h
  | arr items =>
    match items with
    | [] => exact h
    | [only] =>
      cases isList with
      | true => exact h
      | false =>
        obtain ⟨read, hread, -⟩ := bind_eq_ok.1 h
        have hbare : ∀ items, only ≠ .arr items := by
          rintro items rfl
          obtain ⟨v, _, hv, -⟩ := List.forall₂_cons_left_iff.1 (mapM_eq_ok.1 hread)
          exact normalizeElement_arr_ne_ok hknown items v hv
        rw [← h, canonical_singleton hknown hbare]
        rfl
    | _ :: _ :: _ => exact h
  | bool | int | float | str | obj =>
    cases isList with
    | true => exact (canonical_singleton hknown (by simp)).trans h
    | false => exact h

theorem canonical_fitted (specs : List AttributeSpec) (key : String)
    (h : spec.canonical raw = .ok value) : spec.canonical (fitted specs key raw) = .ok value := by
  induction specs generalizing raw with
  | nil => exact h
  | cons head rest ih =>
    by_cases heq : head.responseKey = key
    · rw [fitted_cons_of_eq heq]
      exact ih (canonical_fitValue hknown head.isList h)
    · rw [fitted_cons_of_ne heq]
      exact ih h

end AttributeSpec

namespace Response

open Difference Ensure

variable {declaration : Declaration} {object : RemoteObject} {action : Action} {withFlag : Bool}

/-- A comparison looks at the same fields of a fitted object. -/
theorem considered_fit : considered declaration (fit declaration object) action withFlag =
    (considered declaration object action withFlag).map fun pair ↦
      (pair.1, fitted declaration.attributes pair.1.responseKey pair.2) := by
  rw [fit_eq]
  unfold considered Dict.filterMap
  simp only [Option.map_some, List.filterMap_eq_map', List.filterMap_map, List.map_filterMap]
  apply List.filterMap_congr
  rintro ⟨key, raw⟩ -
  simp only [Function.comp_apply]
  cases hspec : declaration.attributeOfResponseKey? key with
  | none => rfl
  | some spec =>
    have hkey : spec.responseKey = key := by simpa using List.find?_some hspec
    subst hkey
    split <;> simp_all

section

variable (hknown : ∀ spec ∈ declaration.attributes, ∀ normalizer ∈ spec.normalizer,
    normalizer ∈ ValueNormalizer.known)

include hknown

theorem normalize_fitted {spec : AttributeSpec} (hspec : spec ∈ declaration.attributes) {raw : Json}
    {value : AttrValue} (h : spec.normalize raw = .ok value) (key : String) :
    spec.normalize (fitted declaration.attributes key raw) = .ok value := by
  rw [AttributeSpec.normalize_eq_ok_iff] at h ⊢
  exact AttributeSpec.canonical_fitted (hknown spec hspec) _ key h

theorem canonicalCurrent_fit {view : Canonical}
    (h : canonicalCurrent declaration object action withFlag = .ok view) :
    canonicalCurrent declaration (fit declaration object) action withFlag = .ok view := by
  rw [canonicalCurrent_eq] at h ⊢
  obtain ⟨values, hvalues, hview⟩ := bind_eq_ok.1 h
  apply bind_eq_ok.2
  refine ⟨values, ?_, hview⟩
  rw [considered_fit, List.mapM_map]
  -- Each field is read as before by the attribute that its key belongs to.
  apply mapM_eq_ok_of_imp _ hvalues
  rintro ⟨spec, raw⟩ hpair entry hentry
  have hspec : spec ∈ declaration.attributes := List.mem_of_find?_eq_some (mem_considered.1 hpair).1
  obtain ⟨value, hread, hvalue⟩ := bind_eq_ok.1 hentry
  exact bind_eq_ok.2 ⟨value, normalize_fitted hknown hspec hread _, hvalue⟩

theorem isEnabled_fit {enabled : Bool} (h : declaration.isEnabled object = .ok enabled) :
    declaration.isEnabled (fit declaration object) = .ok enabled := by
  unfold Declaration.isEnabled at h ⊢
  cases henable : declaration.enable with
  | none => simpa only [henable] using h
  | some flag =>
    simp only [henable] at h ⊢
    cases hattribute : declaration.attribute? flag.attr with
    | none => simp [hattribute] at h
    | some spec =>
      have hspec : spec ∈ declaration.attributes := List.mem_of_find?_eq_some hattribute
      simp only [hattribute, get?_fit] at h ⊢
      cases hraw : object.get? spec.responseKey with
      | none => simpa only [hraw, Option.map_none] using h
      | some raw =>
        simp only [hraw, Option.map_some] at h ⊢
        cases hread : spec.normalize raw with
        | error failure => simp [hread] at h
        | ok value =>
          rw [normalize_fitted hknown hspec hread]
          simpa only [hread] using h

end

/-- Giving the values of an object the shape of their attributes changes nothing of what they say:
wherever the object can be read for a comparison, the fitted object is read the same, and wherever
its flag can be told, the fitted object has the same flag. Attributes may share keys. -/
theorem fit_keeps_readings (declaration : Declaration)
    (hknown : ∀ spec ∈ declaration.attributes, ∀ normalizer ∈ spec.normalizer,
      normalizer ∈ ValueNormalizer.known) (object : RemoteObject) :
    (∀ action withFlag view, canonicalCurrent declaration object action withFlag = .ok view →
      canonicalCurrent declaration (fit declaration object) action withFlag = .ok view) ∧
    ∀ enabled, declaration.isEnabled object = .ok enabled →
      declaration.isEnabled (fit declaration object) = .ok enabled :=
  ⟨fun _ _ _ h ↦ canonicalCurrent_fit hknown h, fun _ h ↦ isEnabled_fit hknown h⟩

/-- Two pairs of attributes with one key, a single value before a list and a list before the flag. -/
def machine : ObjectSchema where
  toDeclaration := { Declaration.ofName "machine" with
    attributes := [
      AttributeSpec.identityKey "cn",
      { AttributeSpec.scalar "keeper" with
        remoteName := some "manager", normalizer := some .unwrapDnsName },
      { AttributeSpec.list "keepers" with
        remoteName := some "manager", normalizer := some .unwrapDnsName },
      { AttributeSpec.list "states" with kind := .bool, remoteName := some "state" },
      { AttributeSpec.scalar "running" with kind := .bool, remoteName := some "state" }]
    enable := some ⟨"running", false⟩ }
  accepted := by decide +kernel

/-- The shapes of the values are the wrong ones for the last attributes with their keys. -/
def idleMachine : RemoteObject := .ofList [("cn", .arr [.str "m1"]),
  ("manager", .obj [("__dns_name__", .str "bob")]), ("state", .arr [.str "off"])]

def idleView : Canonical := .ofList [("keeper", .scalar (.str "bob")), ("states", .list [.bool false])]

theorem fit_keeps_readings_machine :
    fit machine.toDeclaration idleMachine ≠ idleMachine ∧
      canonicalCurrent machine.toDeclaration (fit machine.toDeclaration idleMachine) .modify true =
          .ok idleView ∧
        machine.isEnabled (fit machine.toDeclaration idleMachine) = .ok false := by
  have hknown : ∀ spec ∈ machine.attributes, ∀ normalizer ∈ spec.normalizer,
      normalizer ∈ ValueNormalizer.known := by
    simp [machine, AttributeSpec.identityKey, AttributeSpec.scalar, AttributeSpec.list,
      AttributeSpec.base, ValueNormalizer.known]
  have hview : canonicalCurrent machine.toDeclaration idleMachine .modify true = .ok idleView := by
    decide +kernel
  have hflag : machine.isEnabled idleMachine = .ok false := by decide +kernel
  have hkeeps := fit_keeps_readings machine.toDeclaration hknown idleMachine
  exact ⟨by decide +kernel, hkeeps.1 .modify true idleView hview, hkeeps.2 false hflag⟩

end Response

end DirectoryReconcile
