import DirectoryReconcile.Proofs.Directory.Search
import DirectoryReconcile.Proofs.Ensure.Changes
import DirectoryReconcile.Proofs.Fitting

/-!
# Objects as they are found

What a run reads from a sound entry is what the entry stores: under the key of every attribute the
scalars of the attribute, and under no other key anything.
-/

namespace DirectoryReconcile

namespace Entry

/-- The scalars of an attribute in the entry of an object; an object that does not exist has none. -/
def stock (held : Option Entry) (spec : AttributeSpec) : List Scalar :=
  match held with
  | some entry => Stored.scalars entry.attrs spec
  | none => []

end Entry

namespace Declaration

/-- An identity has values of declared attributes only. -/
def Covers (declaration : Declaration) (identity : Identity) : Prop :=
  ∀ name value, identity.get? name = some value → ∃ spec ∈ declaration.attributes, spec.name = name

theorem Spells.covers {declaration : Declaration} (regular : declaration.Regular)
    {identity : Identity} {texts : List String} (h : declaration.Spells identity texts) :
    declaration.Covers identity := fun _ _ hget ↦ by
  obtain ⟨pair, hpair, hname, -⟩ := h.mem_of_get? regular hget
  exact ⟨pair.1, (mem_of_mem_pairs hpair).1, hname⟩

/-- The identity that a call spells out, whatever its arguments are. -/
theorem covers_identityOfCall (declaration : Declaration) (call : RemoteCall) :
    declaration.Covers (declaration.identityOfCall call) := fun name value hget ↦ by
  obtain ⟨⟨key, raw⟩, hpair, h⟩ := List.mem_filterMap.1 (Dict.mem_of_get?_ofList hget)
  obtain ⟨spec, hspec, rfl⟩ := List.mem_map.1 (List.of_mem_zip hpair).1
  refine ⟨spec, (mem_identityAttributes.1 hspec).1, ?_⟩
  simp only at h
  split at h
  · exact (Prod.mk.inj (Option.some.inj h)).1
  · simp at h

/-- The hook, if there is one, finds no canonical principal to go by. -/
def Idle (declaration : Declaration) : Prop :=
  declaration.responseHook = none ∨
    declaration.responseHook = some .dropCanonicalPrincipal ∧
      ∀ spec ∈ declaration.attributes, spec.responseKey ≠ ResponseHook.canonicalKey ∧
        spec.name ≠ ResponseHook.canonicalKey

end Declaration

/-- Of the known types only services have canonical principals. -/
theorem ObjectSchema.idle_of_mem_builtins {schema : ObjectSchema} (h : schema ∈ builtins)
    (hservice : schema.name ≠ service.name) : schema.toDeclaration.Idle := by
  simp only [builtins, List.mem_cons, List.not_mem_nil, or_false] at h
  rcases h with rfl | rfl | rfl | rfl | rfl | rfl | rfl
  · exact .inl rfl
  · exact .inr ⟨rfl, by decide +kernel⟩
  · exact absurd rfl hservice
  · exact .inl rfl
  · exact .inl rfl
  · exact .inl rfl
  · exact .inl rfl

theorem ObjectSchema.idle_of_enable {schema : ObjectSchema} (h : schema ∈ builtins)
    (henable : schema.enable.isSome) : schema.toDeclaration.Idle := by
  refine idle_of_mem_builtins h fun hname ↦ ?_
  obtain rfl := eq_of_name_eq h (by simp [builtins]) hname
  cases henable

namespace Ensure

open Declaration Entry Difference

variable {declaration : Declaration} (regular : declaration.Regular)
  {allowed : String → Scalar → Prop} {identity : Identity} {held : Option Entry}
  (hheld : ∀ entry ∈ held, entry.Sound declaration allowed)

/-- A view that has the attributes which an object stores and an action looks at. -/
structure Views (declaration : Declaration) (action : Action) (withFlag : Bool)
    (held : Option Entry) (view : Canonical) : Prop where
  declared : ∀ spec ∈ declaration.attributes, view.get? spec.name =
    if considers declaration action withFlag spec = true ∧ stock held spec ≠ [] then
      some (spec.valueOf (stock held spec))
    else none
  undeclared : ∀ name, declaration.attribute? name = none → view.get? name = none

/-- The object that is reported of an entry, or of none. -/
def shown (declaration : Declaration) (identity : Identity) (held : Option Entry) : RemoteObject :=
  Response.present declaration identity ((held.map (render declaration)).getD .null)

theorem get?_fields_render (declaration : Declaration) (entry : Entry) (key : String) :
    (entry.render declaration).fields.get? key = (entry.attrs.get? key).map
      (wrapped (((declaration.attributeOfResponseKey? key).map (·.encoding)).getD .plain)) := by
  have hkeys : (entry.attrs.entries.map fun pair ↦
      let encoding := ((declaration.attributeOfResponseKey? pair.1).map (·.encoding)).getD .plain
      (pair.1, wrapped encoding pair.2)).map Prod.fst = entry.attrs.keys := by
    rw [List.map_map]
    rfl
  have hnodup := entry.attrs.nodup_keys
  rw [← hkeys] at hnodup
  rw [← get?_render, render, Json.fields, Dict.get?_ofList hnodup]
  rfl

/-- The fields of what the service reports of an object. -/
def reported (declaration : Declaration) (held : Option Entry) : RemoteObject :=
  ((held.map (render declaration)).getD .null).fields

include regular hheld

/-- The elements of what is reported of an attribute. -/
theorem get?_reported {spec : AttributeSpec} (hspec : spec ∈ declaration.attributes) :
    (reported declaration held).get? spec.responseKey =
      if stock held spec = [] then none
      else some (.arr ((stock held spec).map fun v ↦ spec.encoding.wrap v.toJson)) := by
  cases held with
  | none => rfl
  | some entry =>
    have hstored := (hheld entry rfl).stored
    have hattribute := regular.attributeOfResponseKey?_of_mem hspec
    rw [reported, Option.map_some, Option.getD_some, get?_fields_render,
      hstored.get?_eq regular hspec, hattribute]
    by_cases hempty : Stored.scalars entry.attrs spec = []
    · simp [stock, hempty]
    · simp only [stock, hempty, if_false, Option.map_some, Option.getD_some, wrapped, List.map_map]
      rfl

omit regular in
theorem get?_reported_of_ne {key : String}
    (hkey : ∀ spec ∈ declaration.attributes, spec.responseKey ≠ key) :
    (reported declaration held).get? key = none := by
  cases held with
  | none => rfl
  | some entry =>
    unfold reported
    rw [Option.map_some, Option.getD_some, get?_fields_render]
    cases hget : entry.attrs.get? key with
    | none => rfl
    | some value =>
      obtain ⟨spec, hspec, heq, -⟩ := (hheld entry rfl).stored key value hget
      exact absurd heq (hkey spec hspec)

omit regular in
/-- The hook finds nothing to do. -/
theorem shown_eq (idle : declaration.Idle) (covers : declaration.Covers identity) :
    shown declaration identity held = Response.fit declaration (reported declaration held) := by
  unfold shown
  rw [Response.present]
  rcases idle with hnone | ⟨hsome, hkeys⟩
  · rw [hnone]
    rfl
  · have hobject : (Response.fit declaration (reported declaration held)).get?
        ResponseHook.canonicalKey = none := by
      rw [Response.get?_fit, get?_reported_of_ne hheld, Option.map_none]
      exact fun spec hspec ↦ (hkeys spec hspec).1
    have hidentity : identity.get? ResponseHook.canonicalKey = none := by
      cases hget : identity.get? ResponseHook.canonicalKey with
      | none => rfl
      | some value =>
        obtain ⟨spec, hspec, hname⟩ := covers _ value hget
        exact absurd hname (hkeys spec hspec).2
    simp only [reported] at hobject
    simp only [hsome, ResponseHook.dropCanonicalPrincipal, ResponseHook.canonicalPrincipal?,
      hobject, hidentity, reported]

/-! ## Objects that show an entry -/

/-- An object that has under the key of every attribute the scalars which an entry stores, and under
no other key anything. -/
structure Shows (declaration : Declaration) (held : Option Entry) (object : RemoteObject) :
    Prop where
  declared : ∀ spec ∈ declaration.attributes,
    (stock held spec = [] ∧ object.get? spec.responseKey = none) ∨
      stock held spec ≠ [] ∧ ∃ raw, object.get? spec.responseKey = some raw ∧
        spec.canonical raw = .ok (spec.valueOf (stock held spec))
  undeclared : ∀ key, (∀ spec ∈ declaration.attributes, spec.responseKey ≠ key) →
    object.get? key = none

theorem get?_fit_reported {spec : AttributeSpec} (hspec : spec ∈ declaration.attributes) :
    (Response.fit declaration (reported declaration held)).get? spec.responseKey =
      if stock held spec = [] then none
      else some (Response.fitValue spec.isList
        (.arr ((stock held spec).map fun v ↦ spec.encoding.wrap v.toJson))) := by
  rw [Response.get?_fit, get?_reported regular hheld hspec, apply_ite (Option.map _),
    Option.map_none, Option.map_some, Response.fitted_of_mem regular.keys_nodup hspec]

theorem shows_fit :
    Shows declaration held (Response.fit declaration (reported declaration held)) := by
  refine ⟨fun spec hspec ↦ ?_, fun key hkey ↦ ?_⟩
  · rw [get?_fit_reported regular hheld hspec]
    by_cases hempty : stock held spec = []
    · exact .inl ⟨hempty, if_pos hempty⟩
    refine .inr ⟨hempty, _, if_neg hempty, ?_⟩
    obtain ⟨entry, rfl⟩ : ∃ entry, held = some entry := by
      cases held with
      | none => exact absurd rfl hempty
      | some entry => exact ⟨entry, rfl⟩
    have hstocks := (hheld entry rfl).stored.stocks regular hspec hempty
    have hread : ∀ v ∈ stock (some entry) spec,
        v ≠ .null ∧ spec.normalizeElement (spec.encoding.wrap v.toJson) = .ok v := fun v hv ↦
      ⟨(hstocks.keeps v hv).ne_null, (hstocks.keeps v hv).wrapped⟩
    refine AttributeSpec.canonical_of_elements ?_ hread hstocks.short
    exact Response.elements_fitValue (fun v hv ↦ (hread v hv).1) hempty spec.isList
  · rw [Response.get?_fit, get?_reported_of_ne hheld hkey, Option.map_none]

theorem shows_shown (idle : declaration.Idle) (covers : declaration.Covers identity) :
    Shows declaration held (shown declaration identity held) := by
  rw [shown_eq hheld idle covers]
  exact shows_fit regular hheld

variable {object : RemoteObject} (shows : Shows declaration held object)

include shows

/-- An object is found when it exists. -/
theorem Shows.isEmpty_eq : object.isEmpty = held.isNone := by
  cases held with
  | none =>
    refine (Dict.isEmpty_iff _).2 ((Dict.eq_empty_iff _).2 fun key ↦ ?_)
    by_cases hkey : ∃ spec ∈ declaration.attributes, spec.responseKey = key
    · obtain ⟨spec, hspec, rfl⟩ := hkey
      exact ((shows.declared spec hspec).resolve_right fun h ↦ h.1 rfl).2
    · exact shows.undeclared key fun spec hspec heq ↦ hkey ⟨spec, hspec, heq⟩
  | some entry =>
    obtain ⟨spec, hspec⟩ := List.exists_mem_of_ne_nil _ regular.identified
    have hown := (hheld entry rfl).get?_ownText hspec
    have hstock : stock (some entry) spec ≠ [] := by
      rw [stock, Stored.scalars, Stored.valuesOf_of_get? hown]
      simp [Scalar.ofJson?]
    rcases shows.declared spec (mem_identityAttributes.1 hspec).1 with
      ⟨hnone, -⟩ | ⟨-, raw, hget, -⟩
    · exact absurd hnone hstock
    · rw [Option.isNone_some, ← Bool.not_eq_true, Dict.isEmpty_iff]
      intro hempty
      simp [hempty] at hget

theorem Shows.actionFor_eq :
    actionFor object = if held.isNone then .add else .modify := by
  unfold actionFor
  rw [shows.isEmpty_eq regular hheld]

omit hheld

theorem Shows.canonicalCurrent (action : Action) (withFlag : Bool) :
    ∃ current, Difference.canonicalCurrent declaration object action withFlag = .ok current ∧
      Views declaration action withFlag held current := by
  obtain ⟨current, hcurrent⟩ : ∃ current,
      Difference.canonicalCurrent declaration object action withFlag = .ok current := by
    apply canonicalCurrent_isOk
    intro spec hspec raw hraw
    rcases shows.declared spec hspec with ⟨-, hnone⟩ | ⟨-, raw', hget, hread⟩
    · simp [hnone] at hraw
    · cases hraw.symm.trans hget
      exact ⟨_, hread⟩
  refine ⟨current, hcurrent, fun spec hspec ↦ ?_, fun name hname ↦ ?_⟩
  · apply Option.ext
    intro value
    rw [get?_canonicalCurrent regular hcurrent]
    constructor
    · rintro ⟨other, hother, hname, hconsiders, raw, hraw, hread⟩
      obtain rfl := regular.eq_of_name_eq hother hspec hname
      rcases shows.declared other hspec with ⟨-, hnone⟩ | ⟨hne, raw', hget, hread'⟩
      · simp [hnone] at hraw
      · cases hraw.symm.trans hget
        rw [if_pos ⟨hconsiders, hne⟩, Except.ok.inj (hread'.symm.trans hread)]
    · intro h
      split at h
      next hboth =>
        rcases shows.declared spec hspec with ⟨hempty, -⟩ | ⟨-, raw, hget, hread⟩
        · exact absurd hempty hboth.2
        · exact ⟨spec, hspec, rfl, hboth.1, raw, hget, Option.some.inj h ▸ hread⟩
      next => simp at h
  · cases hget : current.get? name with
    | none => rfl
    | some value =>
      obtain ⟨spec, hspec, rfl, -⟩ := (get?_canonicalCurrent regular hcurrent).1 hget
      rw [regular.attribute?_of_mem hspec] at hname
      simp at hname

/-! ## The flag -/

omit regular shows in
/-- Whether an object is enabled, by the scalars that it stores of the flag. -/
def enabledIn (declaration : Declaration) (held : Option Entry) : Bool :=
  match declaration.enable with
  | none => true
  | some flag =>
    match (declaration.attribute? flag.attr).map (stock held) with
    | some (.bool stored :: _) => stored != flag.inverted
    | _ => true

theorem Shows.isEnabled_eq : declaration.isEnabled object = .ok (enabledIn declaration held) := by
  unfold isEnabled
  rw [enabledIn]
  cases henable : declaration.enable with
  | none => rfl
  | some flag =>
    obtain ⟨spec, hspec, hname, hscalar, -⟩ := regular.flag_declared flag henable
    have hattribute : declaration.attribute? flag.attr = some spec :=
      regular.attribute?_eq_some_iff.2 ⟨hspec, hname⟩
    simp only [hattribute, Option.map_some]
    rcases shows.declared spec hspec with ⟨hempty, hnone⟩ | ⟨hne, raw, hraw, hread⟩
    · simp only [hnone, hempty]
    · rw [AttributeSpec.valueOf_of_not_isList hscalar] at hread
      simp only [hraw, AttributeSpec.normalize_eq_ok_iff.2 hread]
      cases hstock : stock held spec with
      | nil => exact absurd hstock hne
      | cons v rest => cases v <;> rfl

end Ensure

end DirectoryReconcile
