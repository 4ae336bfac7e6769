import DirectoryReconcile.Proofs.Schema.Reading

/-!
# Values in requests

What a raw value is read as is written into a request, bare or wrapped. It is read as itself again
where the normalizer takes off the wrapper that the encoding puts on, whatever the kind and the
cardinality of the attribute, and nowhere else.
-/

namespace DirectoryReconcile

namespace AttributeSpec

variable {spec : AttributeSpec} {raw : Json} {value : AttrValue}

/-- The scalars of a value stand in a request one by one, each in its wrapper. -/
theorem elements_encode {scalars : List Scalar} (hne : ∀ v ∈ scalars, v ≠ .null)
    (hshort : spec.cardinality = .scalar → scalars.length ≤ 1) :
    elements (spec.encode (spec.valueOf scalars)) =
      scalars.map fun v ↦ spec.encoding.wrap v.toJson := by
  have hencode : ∀ v ∈ scalars, spec.encoding.encode v = spec.encoding.wrap v.toJson := by
    intro v hv
    have hnull := hne v hv
    unfold Encoding.encode
    cases v <;> simp_all [Scalar.isNull]
  unfold valueOf
  cases hcard : spec.cardinality with
  | list => exact List.map_congr_left hencode
  | scalar =>
    cases scalars with
    | nil => rfl
    | cons v rest =>
      obtain rfl : rest = [] := by simpa using hshort hcard
      have hv : v ∈ [v] := List.mem_cons_self
      simp only [List.headD_cons, encode, hencode v hv, elements_wrap _ (hne v hv), List.map_cons,
        List.map_nil]

/-- What a raw value was read as is read as itself from a request. -/
theorem canonical_encode (hspec : spec.Unwraps)
    (hknown : ∀ normalizer ∈ spec.normalizer, normalizer ∈ ValueNormalizer.known)
    (h : spec.canonical raw = .ok value) : spec.canonical (spec.encode value) = .ok value := by
  obtain ⟨scalars, rfl, hread, hshort⟩ := exists_of_canonical h
  have hne : ∀ v ∈ scalars, v ≠ .null := fun v hv ↦ (hread v hv).1
  apply canonical_of_elements (elements_encode hne hshort) _ hshort
  intro v hv
  obtain ⟨hnull, element, helement⟩ := hread v hv
  refine ⟨hnull, ?_⟩
  rw [hspec.normalizeElement_wrap]
  exact normalizeElement_toJson hknown helement

/-! ## Wrappers that stay on -/

/-- The text of the number one can be read as any kind. -/
theorem exists_normalizeElement_one
    (hknown : ∀ normalizer ∈ spec.normalizer, normalizer ∈ ValueNormalizer.known) :
    ∃ v, v ≠ .null ∧ spec.normalizeElement (.str "1") = .ok v := by
  have hcoerce : ∃ v, v ≠ .null ∧ spec.kind.coerce (.str "1") = .ok v := by
    cases spec.kind with
    | str => exact ⟨.str "1", by decide, rfl⟩
    | int => exact ⟨.int 1, by decide, by decide +kernel⟩
    | bool => exact ⟨.bool true, by decide, by decide +kernel⟩
  unfold normalizeElement
  cases hnormalizer : spec.normalizer with
  | none => exact hcoerce
  | some normalizer =>
    have hone : normalizer.apply (.str "1") = .ok (.str "1") := by
      rcases ValueNormalizer.mem_known_iff.1 (hknown normalizer hnormalizer) with rfl | rfl | rfl
      · rfl
      · rfl
      · decide +kernel
    simp only [hone]
    exact hcoerce

/-- No kind has values that are objects. -/
theorem coerce_obj_ne_ok (kind : ValueKind) (fields : List (String × Json)) (v : Scalar) :
    kind.coerce (.obj fields) ≠ .ok v := by
  cases kind <;>
    simp [ValueKind.coerce, Json.isNull, ValueKind.textOf, ValueKind.integerOf, ValueKind.flagOf]

/-- A normalizer leaves a wrapper on unless it is the one that takes it off. -/
theorem apply_wrap {normalizer unwrapper : ValueNormalizer} {encoding : Encoding}
    (hmem : normalizer ∈ ValueNormalizer.known) (hunwrapper : unwrapper ∈ encoding.unwrapper?)
    (inner : Json) : normalizer = unwrapper ∨
      ∃ fields, normalizer.apply (encoding.wrap inner) = .ok (.obj fields) := by
  have hcases := ValueNormalizer.mem_known_iff.1 hmem
  cases encoding with
  | plain => simp [Encoding.unwrapper?] at hunwrapper
  | base64 =>
    obtain rfl := Option.some.inj hunwrapper
    rcases hcases with rfl | rfl | rfl
    · exact .inl rfl
    · exact .inr ⟨_, rfl⟩
    · exact .inr ⟨_, rfl⟩
  | dnsName =>
    obtain rfl := Option.some.inj hunwrapper
    rcases hcases with rfl | rfl | rfl
    · exact .inr ⟨_, rfl⟩
    · exact .inl rfl
    · exact .inr ⟨_, rfl⟩

/-- Only the normalizer that takes off a wrapper can read what is inside. -/
theorem normalizer_of_wrapped
    (hknown : ∀ normalizer ∈ spec.normalizer, normalizer ∈ ValueNormalizer.known)
    {unwrapper : ValueNormalizer} (hunwrapper : unwrapper ∈ spec.encoding.unwrapper?) {inner : Json}
    {v : Scalar} (h : spec.normalizeElement (spec.encoding.wrap inner) = .ok v) :
    spec.normalizer = some unwrapper := by
  unfold normalizeElement at h
  cases hnormalizer : spec.normalizer with
  | none =>
    simp only [hnormalizer] at h
    cases hencoding : spec.encoding <;> rw [hencoding] at h hunwrapper
    · simp [Encoding.unwrapper?] at hunwrapper
    · exact absurd h (coerce_obj_ne_ok _ _ _)
    · exact absurd h (coerce_obj_ne_ok _ _ _)
  | some normalizer =>
    rcases apply_wrap (hknown normalizer hnormalizer) hunwrapper inner with
      rfl | ⟨fields, happly⟩
    · rfl
    · simp only [hnormalizer, happly] at h
      exact absurd h (coerce_obj_ne_ok _ _ _)

/-- Where whatever can be read is read again from a request, the wrapper is taken off. -/
theorem unwraps_of_canonical_encode
    (hknown : ∀ normalizer ∈ spec.normalizer, normalizer ∈ ValueNormalizer.known)
    (h : ∀ raw value, spec.canonical raw = .ok value → spec.canonical (spec.encode value) = .ok value) :
    spec.Unwraps := by
  intro unwrapper hunwrapper
  obtain ⟨v, hne, hread⟩ := exists_normalizeElement_one hknown
  have helements : elements (.str "1") = [v].map fun _ ↦ .str "1" := rfl
  have hone : spec.canonical (.str "1") = .ok (spec.valueOf [v]) :=
    canonical_of_elements helements (by simp [hne, hread]) (by simp)
  obtain ⟨read, hback, -⟩ := bind_eq_ok.1 (h _ _ hone)
  rw [elements_encode (by simpa using hne) (by simp), mapM_eq_ok, List.map_cons, List.map_nil,
    List.forall₂_cons_left_iff] at hback
  obtain ⟨w, -, hwrapped, -⟩ := hback
  exact normalizer_of_wrapped hknown hunwrapper hwrapped

/-- Reading undoes writing exactly where the normalizer takes off the wrapper that the encoding puts
on: what a raw value is read as is then read as itself, bare and as it stands in a request. -/
theorem unwraps_iff_reads_back
    (hknown : ∀ normalizer ∈ spec.normalizer, normalizer ∈ ValueNormalizer.known) :
    spec.Unwraps ↔ ∀ raw value, spec.normalize raw = .ok value →
      spec.normalize value.toJson = .ok value ∧ spec.normalize (spec.encode value) = .ok value := by
  simp only [normalize_eq_ok_iff]
  constructor
  · intro hspec raw value h
    exact ⟨canonical_of_canonical hknown h, canonical_encode hspec hknown h⟩
  · intro h
    exact unwraps_of_canonical_encode hknown fun raw value hread ↦ (h raw value hread).2

/-- Certificates, which are wrapped on the way out and unwrapped on the way in. -/
def certificate : AttributeSpec :=
  { list "usercertificate" with encoding := .base64, normalizer := some .unwrapBase64 }

/-- One certificate in its wrapper, one without it, and the sign for none. -/
def chain : Json := .arr [.obj [("__base64__", .str "MIIC")], .null, .str "MIID"]

theorem unwraps_iff_reads_back_certificate :
    certificate.normalize chain = .ok (.list [.str "MIIC", .str "MIID"]) ∧
      certificate.normalize (.arr [.str "MIIC", .str "MIID"]) =
          .ok (.list [.str "MIIC", .str "MIID"]) ∧
        certificate.normalize (.arr [.obj [("__base64__", .str "MIIC")],
          .obj [("__base64__", .str "MIID")]]) = .ok (.list [.str "MIIC", .str "MIID"]) := by
  have hknown : ∀ normalizer ∈ certificate.normalizer, normalizer ∈ ValueNormalizer.known := by
    intro normalizer hnormalizer
    cases Option.some.inj hnormalizer
    exact List.mem_cons_self
  have hunwraps : certificate.Unwraps := by
    intro unwrapper hunwrapper
    cases Option.some.inj hunwrapper
    rfl
  have hread : certificate.normalize chain = .ok (.list [.str "MIIC", .str "MIID"]) := by
    decide +kernel
  exact ⟨hread, (unwraps_iff_reads_back hknown).1 hunwraps chain _ hread⟩

end AttributeSpec

end DirectoryReconcile
