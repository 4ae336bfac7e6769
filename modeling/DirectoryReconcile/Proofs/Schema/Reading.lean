import DirectoryReconcile.Proofs.Steps
import DirectoryReconcile.Schema.Principal
import DirectoryReconcile.Schema.Wrapped
import Mathlib.Tactic.Common

/-!
# Reading what was written

A value that was read once is read as itself again, bare or in the wrapper that its attribute puts
around it. This needs an encoding and a normalizer that belong together.
-/

namespace DirectoryReconcile

theorem Scalar.toJson_injective : Function.Injective Scalar.toJson := by
  intro first second h
  simpa using congrArg ofJson? h

namespace ValueKind

/-- The scalar that an element stands for stands for itself. -/
theorem coerce_toJson {kind : ValueKind} {raw : Json} {value : Scalar}
    (h : kind.coerce raw = .ok value) : kind.coerce value.toJson = .ok value := by
  rw [coerce.eq_def] at h
  split at h
  · cases h
    rfl
  cases kind with
  | str =>
    obtain ⟨s, rfl⟩ : ∃ s, value = .str s := by
      cases raw <;> simp only [textOf, Except.ok.injEq, reduceCtorEq] at h <;>
        exact ⟨_, h.symm⟩
    rfl
  | int =>
    obtain ⟨n, rfl⟩ : ∃ n, value = .int n := by
      simp only [integerOf] at h
      split at h
      all_goals try split at h
      all_goals first | exact ⟨_, (Except.ok.inj h).symm⟩ | simp at h
    simp [coerce.eq_def, Scalar.toJson, Json.isNull, integerOf, Json.asSigned64?,
      Scalar.signed64?_toInt]
  | bool =>
    obtain ⟨b, rfl⟩ : ∃ b, value = .bool b := by
      simp only [flagOf] at h
      split at h
      all_goals try split at h
      all_goals try split at h
      all_goals first | exact ⟨_, (Except.ok.inj h).symm⟩ | simp at h
    rfl

/-- Only texts are read as a text, and the printed forms of flags and numbers. -/
theorem coerce_eq_str {kind : ValueKind} {raw : Json} {s : String}
    (h : kind.coerce raw = .ok (.str s)) :
    raw = .str s ∨ (∃ b, s = (Scalar.bool b).display) ∨ (∃ n : Int, s = toString n) ∨
      ∃ x : Binary64, s = x.toDecimal := by
  rw [coerce.eq_def] at h
  split at h
  · simp at h
  cases kind with
  | str =>
    cases raw with
    | str t => exact .inl (by simpa [textOf] using h)
    | bool b => exact .inr (.inl ⟨b, by simpa [textOf, eq_comm] using h⟩)
    | int n => exact .inr (.inr (.inl ⟨n, by simpa [textOf, Json.compact, eq_comm] using h⟩))
    | float x => exact .inr (.inr (.inr ⟨x, by simpa [textOf, Json.compact, eq_comm] using h⟩))
    | null | arr | obj => simp [textOf] at h
  | int =>
    simp only [integerOf] at h
    split at h
    all_goals try split at h
    all_goals simp at h
  | bool =>
    simp only [flagOf] at h
    split at h
    all_goals try split at h
    all_goals try split at h
    all_goals simp at h

end ValueKind

/-! ## Principals -/

theorem not_mem_toDigits (n : Nat) : '@' ∉ Nat.toDigits 10 n := fun h ↦ by
  simpa using Nat.isDigit_of_mem_toDigits (by decide) (by decide) h

theorem not_mem_toString_int (n : Int) : '@' ∉ (toString n).toList := by
  rw [Int.toString_eq_repr, Int.repr_eq_if]
  split
  · rw [Nat.toList_repr]
    exact not_mem_toDigits _
  · rw [String.toList_append, Nat.toList_repr, List.mem_append, not_or]
    exact ⟨by simp, not_mem_toDigits _⟩

theorem Binary64.not_mem_write {digits : List Char} (h : '@' ∉ digits) (lead : Int) :
    '@' ∉ decimalFormat.write digits lead := by
  have hzeros (n : Nat) : '@' ∉ zeros n := fun hmem ↦ by simpa using (List.mem_replicate.1 hmem).2
  have htake (n : Nat) : '@' ∉ digits.take n := fun hmem ↦ h (List.mem_of_mem_take hmem)
  have hdrop (n : Nat) : '@' ∉ digits.drop n := fun hmem ↦ h (List.mem_of_mem_drop hmem)
  unfold DecimalFormat.write
  split
  · split
    · simp [hzeros, h]
    · simp only
      split <;> simp [hzeros, htake, hdrop, h]
  · have hsign : '@' ∉ (if lead < 0 then "-" else decimalFormat.positiveSign).toList := by
      split <;> decide
    simp only [List.mem_append, not_or]
    refine ⟨⟨⟨?mantissa, by decide⟩, hsign⟩, not_mem_toDigits _⟩
    case mantissa => split <;> simp_all

theorem Binary64.not_mem_toDecimal (x : Binary64) : '@' ∉ x.toDecimal.toList := by
  have hstripped (n : Nat) : '@' ∉ stripZeros (Nat.toDigits 10 n) := fun hmem ↦ by
    have hrest := (List.dropWhile_suffix _).subset (List.mem_reverse.1 hmem)
    exact not_mem_toDigits n (List.mem_reverse.1 hrest)
  unfold toDecimal
  rw [String.toList_ofList]
  simp only
  split
  · split <;> simp [not_mem_write (hstripped _)]
  · split <;> simp [not_mem_write (hstripped _)]

theorem principalName_of_not_mem {s : String} (h : '@' ∉ s.toList) : principalName s = s := by
  have hsplit : Text.splitAll '@' s = [s] :=
    Text.splitAll_eq_iff.2 ⟨String.intercalate_singleton, by simpa using h, by simp⟩
  rw [principalName, hsplit]

/-- A principal without its realm has no realm left to lose. -/
theorem principalName_principalName (s : String) :
    principalName (principalName s) = principalName s := by
  by_cases hpieces : ∃ name realm, Text.splitAll '@' s = [name, realm]
  · obtain ⟨name, realm, hsplit⟩ := hpieces
    have hname : principalName s = name := by rw [principalName, hsplit]
    rw [hname]
    exact principalName_of_not_mem ((Text.splitAll_eq_iff.1 hsplit).2.1 name List.mem_cons_self)
  · have hwhole : principalName s = s := by
      unfold principalName
      split
      next name realm hsplit => exact absurd ⟨name, realm, hsplit⟩ hpieces
      next => rfl
    rw [hwhole, hwhole]

/-- A text read from a principal without its realm has no realm left to lose. -/
theorem principalName_of_coerce {kind : ValueKind} {raw : Json} {s : String}
    (h : kind.coerce (ValueNormalizer.stripRealmOf raw) = .ok (.str s)) : principalName s = s := by
  rcases ValueKind.coerce_eq_str h with hstr | ⟨b, rfl⟩ | ⟨n, rfl⟩ | ⟨x, rfl⟩
  · cases raw <;> simp only [ValueNormalizer.stripRealmOf, Json.str.injEq, reduceCtorEq] at hstr
    rw [← hstr, principalName_principalName]
  · exact principalName_of_not_mem (by cases b <;> decide)
  · exact principalName_of_not_mem (not_mem_toString_int n)
  · exact principalName_of_not_mem x.not_mem_toDecimal

/-- The normalizers of the known types. -/
def ValueNormalizer.known : List ValueNormalizer := [unwrapBase64, unwrapDnsName, stripRealm]

theorem ValueNormalizer.mem_known_iff {normalizer : ValueNormalizer} :
    normalizer ∈ known ↔
      normalizer = unwrapBase64 ∨ normalizer = unwrapDnsName ∨ normalizer = stripRealm := by
  simp only [known, List.mem_cons, List.not_mem_nil, or_false]

/-- The normalizer that takes off the wrapper of an encoding. -/
def Encoding.unwrapper? : Encoding → Option ValueNormalizer
  | .plain => none
  | .base64 => some .unwrapBase64
  | .dnsName => some .unwrapDnsName

namespace AttributeSpec

/-- A value that comes back when it is written, bare or wrapped, and read again. -/
structure Keeps (spec : AttributeSpec) (value : Scalar) : Prop where
  ne_null : value ≠ .null
  bare : spec.normalizeElement value.toJson = .ok value
  wrapped : spec.normalizeElement (spec.encoding.wrap value.toJson) = .ok value

/-- If the encoding puts a wrapper on, the normalizer takes it off. -/
def Unwraps (spec : AttributeSpec) : Prop :=
  ∀ unwrapper ∈ spec.encoding.unwrapper?, spec.normalizer = some unwrapper

/-- The normalizer takes off the wrapper that the encoding puts on. -/
def IsPaired (spec : AttributeSpec) : Prop :=
  spec.encoding = .plain ∧
      (spec.normalizer = none ∨ spec.normalizer = some .stripRealm ∧ spec.kind = .str) ∨
    spec.encoding ≠ .dnsName ∧ spec.normalizer = some .unwrapBase64 ∨
    spec.encoding ≠ .base64 ∧ spec.normalizer = some .unwrapDnsName

variable {spec : AttributeSpec} {value : Scalar}

theorem unwrapField_toJson (key : String) (value : Scalar) :
    ValueNormalizer.unwrapField key value.toJson = value.toJson := by
  cases value <;> rfl

theorem unwrapField_wrap {encoding : Encoding} {key : String} (value : Scalar)
    (h : encoding = .plain ∨ encoding.wrapper? = some key) :
    ValueNormalizer.unwrapField key (encoding.wrap value.toJson) = value.toJson := by
  rcases h with rfl | h
  · exact unwrapField_toJson key value
  · simp [Encoding.wrap, h, ValueNormalizer.unwrapField, Json.get?, Dict.lookupEntry]

theorem coerce_stripRealmOf {kind : ValueKind} {raw : Json}
    (h : kind.coerce (ValueNormalizer.stripRealmOf raw) = .ok value) :
    kind.coerce (ValueNormalizer.stripRealmOf value.toJson) = .ok value := by
  have hread := ValueKind.coerce_toJson h
  cases value with
  | null | bool | int => exact hread
  | str s =>
    rw [Scalar.toJson, ValueNormalizer.stripRealmOf, principalName_of_coerce h]
    exact hread

/-- Whatever an attribute reads is of its kind. -/
theorem exists_coerce {element : Json} (h : spec.normalizeElement element = .ok value) :
    ∃ raw, spec.kind.coerce raw = .ok value := by
  unfold normalizeElement at h
  split at h
  · split at h
    · exact ⟨_, h⟩
    · simp at h
  · exact ⟨_, h⟩

/-- What an element was read as is read as itself. -/
theorem normalizeElement_toJson
    (hknown : ∀ normalizer ∈ spec.normalizer, normalizer ∈ ValueNormalizer.known) {raw : Json}
    (h : spec.normalizeElement raw = .ok value) : spec.normalizeElement value.toJson = .ok value := by
  unfold normalizeElement at h ⊢
  cases hnormalizer : spec.normalizer with
  | none =>
    simp only [hnormalizer] at h ⊢
    exact ValueKind.coerce_toJson h
  | some normalizer =>
    simp only [hnormalizer] at h ⊢
    rcases ValueNormalizer.mem_known_iff.1 (hknown normalizer hnormalizer) with rfl | rfl | rfl
    · simp only [ValueNormalizer.unwrapBase64, unwrapField_toJson] at h ⊢
      exact ValueKind.coerce_toJson h
    · simp only [ValueNormalizer.unwrapDnsName, unwrapField_toJson] at h ⊢
      exact ValueKind.coerce_toJson h
    · exact coerce_stripRealmOf h

theorem IsPaired.known (hspec : spec.IsPaired) :
    ∀ normalizer ∈ spec.normalizer, normalizer ∈ ValueNormalizer.known := by
  rcases hspec with ⟨-, hnone | ⟨hstrip, -⟩⟩ | ⟨-, hunwrap⟩ | ⟨-, hunwrap⟩ <;>
    simp_all [ValueNormalizer.known]

theorem IsPaired.unwraps (hspec : spec.IsPaired) : spec.Unwraps := by
  intro unwrapper hunwrapper
  rcases hspec with ⟨hplain, -⟩ | ⟨hencoding, hunwrap⟩ | ⟨hencoding, hunwrap⟩
  · simp [hplain, Encoding.unwrapper?] at hunwrapper
  · cases hcase : spec.encoding <;> simp_all [Encoding.unwrapper?]
  · cases hcase : spec.encoding <;> simp_all [Encoding.unwrapper?]

/-- The wrapper that an attribute puts on makes no difference. -/
theorem Unwraps.normalizeElement_wrap (hspec : spec.Unwraps) (value : Scalar) :
    spec.normalizeElement (spec.encoding.wrap value.toJson) =
      spec.normalizeElement value.toJson := by
  have hwrapper {key : String} (hkey : spec.encoding.wrapper? = some key) :
      ValueNormalizer.unwrapField key (spec.encoding.wrap value.toJson) =
        ValueNormalizer.unwrapField key value.toJson := by
    rw [unwrapField_wrap value (.inr hkey), unwrapField_toJson]
  unfold normalizeElement
  cases hencoding : spec.encoding with
  | plain => rfl
  | base64 =>
    have hunwrap : spec.normalizer = some .unwrapBase64 := hspec _ (by rw [hencoding]; rfl)
    simp only [hunwrap, ValueNormalizer.unwrapBase64]
    rw [← hencoding, hwrapper (by rw [hencoding]; rfl)]
  | dnsName =>
    have hunwrap : spec.normalizer = some .unwrapDnsName := hspec _ (by rw [hencoding]; rfl)
    simp only [hunwrap, ValueNormalizer.unwrapDnsName]
    rw [← hencoding, hwrapper (by rw [hencoding]; rfl)]

theorem IsPaired.keeps (hspec : spec.IsPaired) {raw : Json}
    (h : spec.normalizeElement raw = .ok value) (hvalue : value ≠ .null) : spec.Keeps value :=
  have hbare := normalizeElement_toJson hspec.known h
  ⟨hvalue, hbare, (hspec.unwraps.normalizeElement_wrap value).trans hbare⟩

/-! ## Whole values -/

/-- The value of an attribute that holds these scalars. -/
def valueOf (spec : AttributeSpec) (scalars : List Scalar) : AttrValue :=
  match spec.cardinality with
  | .list => .list scalars
  | .scalar => .scalar (scalars.headD .null)

theorem valueOf_of_isList (h : spec.isList = true) (scalars : List Scalar) :
    spec.valueOf scalars = .list scalars := by
  unfold isList at h
  rw [decide_eq_true_eq] at h
  unfold valueOf
  rw [h]

theorem cardinality_of_not_isList (h : spec.isList = false) : spec.cardinality = .scalar := by
  unfold isList at h
  cases hcard : spec.cardinality with
  | scalar => rfl
  | list => simp [hcard] at h

theorem valueOf_of_not_isList (h : spec.isList = false) (scalars : List Scalar) :
    spec.valueOf scalars = .scalar (scalars.headD .null) := by
  unfold valueOf
  rw [cardinality_of_not_isList h]

theorem mapM_normalizeElement {scalars : List Scalar} {write : Scalar → Json}
    (h : ∀ v ∈ scalars, spec.normalizeElement (write v) = .ok v) :
    (scalars.map write).mapM spec.normalizeElement = .ok scalars := by
  rw [mapM_eq_ok, List.forall₂_map_left_iff, List.forall₂_same]
  exact h

/-- Elements that are each read as a scalar are read together as the value of these scalars. -/
theorem canonical_of_elements {raw : Json} {scalars : List Scalar} {write : Scalar → Json}
    (hraw : elements raw = scalars.map write)
    (hread : ∀ v ∈ scalars, v ≠ .null ∧ spec.normalizeElement (write v) = .ok v)
    (hshort : spec.cardinality = .scalar → scalars.length ≤ 1) :
    spec.canonical raw = .ok (spec.valueOf scalars) := by
  have hkept : scalars.filter (fun value ↦ !value.isNull) = scalars :=
    List.filter_eq_self.2 fun v hv ↦ by
      have hnull := (hread v hv).1
      cases v <;> simp_all [Scalar.isNull]
  unfold canonical
  rw [hraw, mapM_normalizeElement fun v hv ↦ (hread v hv).2]
  simp only [bind, Except.bind, hkept, valueOf]
  cases hcard : spec.cardinality with
  | list => rfl
  | scalar =>
    match scalars, hshort hcard with
    | [], _ => rfl
    | [_], _ => rfl

/-- What a raw value is read as: scalars other than null, one at most unless it is a list. -/
theorem exists_of_canonical {raw : Json} {value : AttrValue} (h : spec.canonical raw = .ok value) :
    ∃ scalars, value = spec.valueOf scalars ∧
      (∀ v ∈ scalars, v ≠ .null ∧ ∃ element, spec.normalizeElement element = .ok v) ∧
      (spec.cardinality = .scalar → scalars.length ≤ 1) := by
  obtain ⟨read, hread, h⟩ := bind_eq_ok.1 h
  have hkept : ∀ v ∈ read.filter (fun value ↦ !value.isNull),
      v ≠ .null ∧ ∃ element, spec.normalizeElement element = .ok v := by
    intro v hv
    obtain ⟨hv, hnull⟩ := List.mem_filter.1 hv
    obtain ⟨element, -, helement⟩ := (mem_of_mapM hread).1 hv
    exact ⟨by rintro rfl; simp [Scalar.isNull] at hnull, element, helement⟩
  generalize read.filter (fun value ↦ !value.isNull) = kept at h hkept
  refine ⟨kept, ?_, hkept, fun hcard ↦ ?_⟩
  · unfold valueOf
    cases hcard : spec.cardinality with
    | list =>
      rw [hcard] at h
      exact (Except.ok.inj h).symm
    | scalar =>
      rw [hcard] at h
      match kept with
      | [] => exact (Except.ok.inj h).symm
      | [_] => exact (Except.ok.inj h).symm
      | _ :: _ :: _ => simp [shape] at h
  · rw [hcard] at h
    match kept with
    | [] | [_] => simp
    | _ :: _ :: _ => simp [shape] at h

theorem isList_of_canonical {raw : Json} {value : AttrValue} (h : spec.canonical raw = .ok value) :
    spec.isList = value.isList := by
  obtain ⟨scalars, rfl, -⟩ := exists_of_canonical h
  unfold valueOf isList
  cases spec.cardinality <;> rfl

/-- What a requested value is read as: scalars that the attribute keeps, one at most unless it is a
list. -/
theorem IsPaired.canonical_toJson (hspec : spec.IsPaired) {raw value : AttrValue}
    (h : spec.canonical raw.toJson = .ok value) :
    ∃ scalars, value = spec.valueOf scalars ∧ (∀ v ∈ scalars, spec.Keeps v) ∧
      (spec.cardinality = .scalar → scalars.length ≤ 1) := by
  obtain ⟨scalars, hvalue, hread, hshort⟩ := exists_of_canonical h
  refine ⟨scalars, hvalue, fun v hv ↦ ?_, hshort⟩
  obtain ⟨hne, element, helement⟩ := hread v hv
  exact hspec.keeps helement hne

/-- A wrapped value counts as one. -/
theorem elements_wrap (encoding : Encoding) (hvalue : value ≠ .null) :
    elements (encoding.wrap value.toJson) = [encoding.wrap value.toJson] := by
  cases encoding <;> cases value <;>
    simp_all [Encoding.wrap, Encoding.wrapper?, Scalar.toJson, elements]

theorem elements_valueOf {scalars : List Scalar} (hne : ∀ v ∈ scalars, v ≠ .null)
    (hshort : spec.cardinality = .scalar → scalars.length ≤ 1) :
    elements (spec.valueOf scalars).toJson = scalars.map Scalar.toJson := by
  unfold valueOf
  cases hcard : spec.cardinality with
  | list => rfl
  | scalar =>
    match scalars, hshort hcard with
    | [], _ => rfl
    | [v], _ => exact elements_wrap .plain (hne v List.mem_cons_self)

/-- The canonical form of a raw value is its own canonical form. -/
theorem canonical_of_canonical
    (hknown : ∀ normalizer ∈ spec.normalizer, normalizer ∈ ValueNormalizer.known) {raw : Json}
    {value : AttrValue} (h : spec.canonical raw = .ok value) :
    spec.canonical value.toJson = .ok value := by
  obtain ⟨scalars, rfl, hread, hshort⟩ := exists_of_canonical h
  refine canonical_of_elements (elements_valueOf (fun v hv ↦ (hread v hv).1) hshort)
    (fun v hv ↦ ?_) hshort
  obtain ⟨hne, element, helement⟩ := hread v hv
  exact ⟨hne, normalizeElement_toJson hknown helement⟩

theorem normalize_eq_ok_iff {raw : Json} {value : AttrValue} :
    spec.normalize raw = .ok value ↔ spec.canonical raw = .ok value := by
  unfold normalize
  cases spec.canonical raw <;> simp

theorem normalize_eq_error_iff {raw : Json} {failure : Failure} :
    spec.normalize raw = .error failure ↔
      ∃ fault, spec.canonical raw = .error fault ∧
        failure = .validation spec.name (.value fault) := by
  unfold normalize
  cases spec.canonical raw <;> simp [eq_comm]

/-- The values of a text attribute are texts. -/
theorem Keeps.exists_str (h : spec.Keeps value) (hkind : spec.kind = .str) :
    ∃ s, value = .str s := by
  obtain ⟨raw, hraw⟩ := exists_coerce h.bare
  rw [hkind, ValueKind.coerce.eq_def] at hraw
  split at hraw
  · exact absurd (Except.ok.inj hraw).symm h.ne_null
  · cases raw <;> simp only [ValueKind.textOf, Except.ok.injEq, reduceCtorEq] at hraw <;>
      exact ⟨_, hraw.symm⟩

end AttributeSpec

end DirectoryReconcile
