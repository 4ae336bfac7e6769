import DirectoryReconcile.Proofs.Ensure.Leading

/-!
# Canonical views

What the two sides of a comparison hold for an attribute. An object is read by the keys of its
fields, and a key belongs to the first attribute that has it; since attributes are told apart by
their names, no two fields are read for one attribute.
-/

namespace DirectoryReconcile

namespace Difference

open Declaration

variable {declaration : Declaration} {action : Action} {name : String} {value : AttrValue}

/-- The attributes that a comparison looks at: those that the action can write, but not the identity,
and the flag only where it is forced. -/
structure Compared (declaration : Declaration) (action : Action) (forced : Bool)
    (spec : AttributeSpec) : Prop where
  written : spec.appliesTo action = true
  unnamed : spec.identity = false
  flag : declaration.isEnableAttribute spec.name = true → forced = true

theorem considers_iff {forced : Bool} {spec : AttributeSpec} :
    considers declaration action forced spec = true ↔ Compared declaration action forced spec := by
  simp only [considers, Bool.and_eq_true, Bool.not_eq_true', Bool.or_eq_true]
  constructor
  · rintro ⟨⟨hidentity, hwritten⟩, hflag⟩
    exact ⟨hwritten, hidentity, fun henable ↦ hflag.resolve_right (by simp [henable])⟩
  · rintro ⟨hwritten, hidentity, hflag⟩
    refine ⟨⟨hidentity, hwritten⟩, ?_⟩
    cases henable : declaration.isEnableAttribute spec.name with
    | true => exact .inl (hflag henable)
    | false => exact .inr rfl

/-- What an object has for an attribute in canonical form. -/
def Has (declaration : Declaration) (object : RemoteObject) (action : Action) (forced : Bool)
    (name : String) (value : AttrValue) : Prop :=
  ∃ spec raw, declaration.attributeOfResponseKey? spec.responseKey = some spec ∧ spec.name = name ∧
    Compared declaration action forced spec ∧ object.get? spec.responseKey = some raw ∧
      spec.normalize raw = .ok value

/-- What an object has belongs to the declared attribute of that name. -/
theorem Has.exists_attribute {schema : ObjectSchema} {object : RemoteObject} {forced : Bool}
    (h : Has schema.toDeclaration object action forced name value) :
    ∃ spec, schema.attribute? name = some spec ∧
      schema.attributeOfResponseKey? spec.responseKey = some spec ∧
        Compared schema.toDeclaration action forced spec ∧
          ∃ raw, object.get? spec.responseKey = some raw ∧ spec.canonical raw = .ok value := by
  obtain ⟨spec, raw, hkey, hname, hcompared, hraw, hread⟩ := h
  exact ⟨spec,
    (named?_eq_some_iff schema.names_nodup).2 ⟨List.mem_of_find?_eq_some hkey, hname⟩, hkey,
    hcompared, raw, hraw, AttributeSpec.normalize_eq_ok_iff.1 hread⟩

/-- What is requested for an attribute in canonical form. -/
def Wants (declaration : Declaration) (desired : DesiredState) (action : Action) (name : String)
    (value : AttrValue) : Prop :=
  ∃ spec raw, declaration.attribute? name = some spec ∧ Compared declaration action false spec ∧
    desired.attributes.get? name = some raw ∧ spec.normalize raw.toJson = .ok value

end Difference

namespace Ensure

open Declaration Difference

variable {declaration : Declaration} {action : Action} {name : String} {value : AttrValue}

/-! ## The view of an object -/

/-- The fields of an object that an action looks at, with their attributes. -/
def considered (declaration : Declaration) (object : RemoteObject) (action : Action)
    (withFlag : Bool) : List (AttributeSpec × Json) :=
  object.entries.filterMap fun entry ↦
    match declaration.attributeOfResponseKey? entry.1 with
    | some spec =>
      if considers declaration action withFlag spec then some (spec, entry.2) else none
    | none => none

theorem canonicalCurrent_eq (object : RemoteObject) (action : Action) (withFlag : Bool) :
    canonicalCurrent declaration object action withFlag = (do
      let values ← (considered declaration object action withFlag).mapM fun (spec, raw) ↦ do
        return (spec.name, ← spec.normalize raw)
      return .ofList values) := rfl

theorem mem_considered {object : RemoteObject} {withFlag : Bool} {pair : AttributeSpec × Json} :
    pair ∈ considered declaration object action withFlag ↔
      declaration.attributeOfResponseKey? pair.1.responseKey = some pair.1 ∧
        considers declaration action withFlag pair.1 = true ∧
          object.get? pair.1.responseKey = some pair.2 := by
  unfold considered
  rw [List.mem_filterMap]
  constructor
  · rintro ⟨⟨key, raw⟩, hentry, h⟩
    simp only at h
    split at h
    next spec hattribute =>
      split at h
      next hconsiders =>
        cases Option.some.inj h
        have hkey : spec.responseKey = key := by simpa using List.find?_some hattribute
        subst hkey
        exact ⟨hattribute, hconsiders, object.mem_entries_iff.1 hentry⟩
      next => simp at h
    next => simp at h
  · rintro ⟨hattribute, hconsiders, hget⟩
    refine ⟨(pair.1.responseKey, pair.2), object.mem_entries_iff.2 hget, ?_⟩
    simp only [hattribute, hconsiders, if_true]

variable (declaration) in
/-- The view of an object is there where all its fields can be read; else it fails as the reading of
one of them does. -/
theorem canonicalCurrent_cases (object : RemoteObject) (action : Action) (withFlag : Bool) :
    (∃ view, canonicalCurrent declaration object action withFlag = .ok view ∧
        ∀ pair ∈ considered declaration object action withFlag,
          ∃ value, pair.1.normalize pair.2 = .ok value) ∨
      ∃ failure, canonicalCurrent declaration object action withFlag = .error failure ∧
        ∃ pair ∈ considered declaration object action withFlag,
          pair.1.normalize pair.2 = .error failure := by
  rw [canonicalCurrent_eq]
  rcases mapM_cases (fun (pair : AttributeSpec × Json) ↦ do
      return (pair.1.name, ← pair.1.normalize pair.2))
    (considered declaration object action withFlag) with
    ⟨values, hvalues, hall⟩ | ⟨failure, hfails, pair, hpair, hread⟩
  · refine .inl ⟨.ofList values, bind_eq_ok.2 ⟨values, hvalues, rfl⟩, fun pair hpair ↦ ?_⟩
    obtain ⟨entry, hentry⟩ := hall pair hpair
    obtain ⟨value, hread, -⟩ := bind_eq_ok.1 hentry
    exact ⟨value, hread⟩
  · refine .inr ⟨failure, ?_, pair, hpair, ?_⟩
    · rw [hfails]
      rfl
    · cases hvalue : pair.1.normalize pair.2 with
      | error other => simpa [hvalue, bind, Except.bind] using hread
      | ok value => simp [hvalue, bind, Except.bind, pure, Except.pure] at hread

/-- The view of an object has what the object has. -/
theorem get?_canonicalCurrent_iff (hnodup : (declaration.attributes.map (·.name)).Nodup)
    {object : RemoteObject} {withFlag : Bool} {current : Canonical}
    (h : canonicalCurrent declaration object action withFlag = .ok current) :
    current.get? name = some value ↔ Has declaration object action withFlag name value := by
  rw [canonicalCurrent_eq] at h
  obtain ⟨values, hvalues, h⟩ := bind_eq_ok.1 h
  cases Except.ok.inj h
  have hmem (value : AttrValue) :
      (name, value) ∈ values ↔ Has declaration object action withFlag name value := by
    rw [mem_of_mapM hvalues]
    constructor
    · rintro ⟨⟨spec, raw⟩, hpair, hread⟩
      obtain ⟨hattribute, hconsiders, hget⟩ := mem_considered.1 hpair
      obtain ⟨value, hvalue, hread⟩ := bind_eq_ok.1 hread
      cases Except.ok.inj hread
      exact ⟨spec, raw, hattribute, rfl, considers_iff.1 hconsiders, hget, hvalue⟩
    · rintro ⟨spec, raw, hattribute, rfl, hcompared, hget, hread⟩
      exact ⟨(spec, raw), mem_considered.2 ⟨hattribute, considers_iff.2 hcompared, hget⟩,
        bind_eq_ok.2 ⟨value, hread, rfl⟩⟩
  rw [← hmem]
  refine Dict.get?_ofList_eq_some_iff fun first second hfirst hsecond ↦ ?_
  -- Two values with the same name come from the same attribute, and so from the same field.
  obtain ⟨spec, raw, hspec, hname, -, hget, hread⟩ := (hmem first).1 hfirst
  obtain ⟨spec', raw', hspec', hname', -, hget', hread'⟩ := (hmem second).1 hsecond
  obtain rfl : spec = spec' := List.inj_on_of_nodup_map hnodup (List.mem_of_find?_eq_some hspec)
    (List.mem_of_find?_eq_some hspec') (hname.trans hname'.symm)
  cases hget.symm.trans hget'
  exact Except.ok.inj (hread.symm.trans hread')

/-! ## The view of a request -/

theorem canonicalRequested_eq_some {raw : AttrValue} {entry : String × AttrValue} :
    canonicalRequested declaration action name raw = .ok (some entry) ↔ entry.1 = name ∧
      ∃ spec, declaration.attribute? name = some spec ∧ Compared declaration action false spec ∧
        spec.normalize raw.toJson = .ok entry.2 := by
  unfold canonicalRequested
  cases declaration.attribute? name with
  | none => simp
  | some spec =>
    simp only [Option.some.injEq, exists_eq_left', ← considers_iff]
    split
    next hconsiders =>
      rw [bind_eq_ok]
      constructor
      · rintro ⟨value, hvalue, h⟩
        cases Option.some.inj (Except.ok.inj h)
        exact ⟨rfl, hconsiders, hvalue⟩
      · rintro ⟨hname, -, hvalue⟩
        exact ⟨entry.2, hvalue, congrArg (Except.ok ∘ some) (Prod.ext hname.symm rfl)⟩
    next hconsiders => simp [hconsiders]

/-- A valid request has a view for every action. -/
theorem canonicalDesired_isOk {desired : DesiredState} {identity : Identity}
    (hvalidate : validate declaration desired = .ok identity) (action : Action) :
    ∃ wanted, canonicalDesired declaration desired action = .ok wanted := by
  have hread : ∀ entry ∈ desired.attributes.entries,
      ∃ read, canonicalRequested declaration action entry.1 entry.2 = .ok read := by
    rintro ⟨name, raw⟩ hentry
    obtain ⟨spec, value, hattribute, -, -, hvalue⟩ := checkRequested_eq_ok_iff.1
      ((parts_of_validate hvalidate).2.1 name raw (desired.attributes.mem_entries_iff.1 hentry))
    simp only [canonicalRequested, hattribute, hvalue]
    split <;> exact ⟨_, rfl⟩
  obtain ⟨values, hvalues⟩ := exists_mapM_iff.2 hread
  exact ⟨_, bind_eq_ok.2 ⟨values, hvalues, rfl⟩⟩

/-- The view of a request has what is requested. -/
theorem get?_canonicalDesired_iff {desired : DesiredState} {wanted : Canonical}
    (h : canonicalDesired declaration desired action = .ok wanted) :
    wanted.get? name = some value ↔ Wants declaration desired action name value := by
  obtain ⟨values, hvalues, h⟩ := bind_eq_ok.1 h
  cases Except.ok.inj h
  have hmem (value : AttrValue) :
      (name, value) ∈ values.filterMap id ↔ Wants declaration desired action name value := by
    rw [List.mem_filterMap]
    simp only [id, exists_eq_right, mem_of_mapM hvalues, canonicalRequested_eq_some, Prod.exists,
      desired.attributes.mem_entries_iff, Wants]
    constructor
    · rintro ⟨_, raw, hraw, rfl, spec, hspec, hcompared, hvalue⟩
      exact ⟨spec, raw, hspec, hcompared, hraw, hvalue⟩
    · rintro ⟨spec, raw, hspec, hcompared, hraw, hvalue⟩
      exact ⟨name, raw, hraw, rfl, spec, hspec, hcompared, hvalue⟩
  rw [← hmem]
  refine Dict.get?_ofList_eq_some_iff fun first second hfirst hsecond ↦ ?_
  obtain ⟨spec, raw, hspec, -, hraw, hread⟩ := (hmem first).1 hfirst
  obtain ⟨spec', raw', hspec', -, hraw', hread'⟩ := (hmem second).1 hsecond
  cases hspec.symm.trans hspec'
  cases hraw.symm.trans hraw'
  exact Except.ok.inj (hread.symm.trans hread')

end Ensure

end DirectoryReconcile
