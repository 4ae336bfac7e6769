import DirectoryReconcile.Ensure
import DirectoryReconcile.Proofs.Dict
import DirectoryReconcile.Proofs.Schema.Regular
import DirectoryReconcile.Proofs.Steps

/-!
# Validated requests

A request that passes spells out one text for each identity attribute, and asks only for attributes
that are declared, for values that can be read.
-/

namespace DirectoryReconcile

namespace Declaration

variable (declaration : Declaration)

/-- The texts that name an object, one for each identity attribute. -/
def pairs (texts : List String) : List (AttributeSpec × String) :=
  declaration.identityAttributes.zip texts

/-- An identity is spelled by these texts when it has them, in the order of the attributes, and
nothing else. -/
structure Spells (identity : Identity) (texts : List String) : Prop where
  length_eq : texts.length = declaration.identityAttributes.length
  identity_eq : identity = .ofList ((declaration.pairs texts).map fun pair ↦
    (pair.1.name, .scalar (.str pair.2)))

variable {declaration} {identity : Identity} {texts : List String}

theorem mem_of_mem_pairs {pair : AttributeSpec × String} (h : pair ∈ declaration.pairs texts) :
    pair.1 ∈ declaration.attributes ∧ pair.1.identity = true :=
  mem_identityAttributes.1 (List.of_mem_zip h).1

theorem pairs_fst (h : texts.length = declaration.identityAttributes.length) :
    (declaration.pairs texts).map Prod.fst = declaration.identityAttributes :=
  List.map_fst_zip (Nat.le_of_eq h.symm)

theorem pairs_snd (h : texts.length = declaration.identityAttributes.length) :
    (declaration.pairs texts).map Prod.snd = texts :=
  List.map_snd_zip (Nat.le_of_eq h)

namespace Spells

theorem nodup_names (regular : declaration.Regular) (h : declaration.Spells identity texts) :
    ((declaration.pairs texts).map fun pair ↦ pair.1.name).Nodup := by
  have hmap : ((declaration.pairs texts).map fun pair ↦ pair.1.name) =
      declaration.identityAttributes.map (·.name) := by
    rw [← pairs_fst h.length_eq, List.map_map]
    rfl
  rw [hmap]
  exact regular.names_nodup.sublist (List.filter_sublist.map _)

theorem nodup_keys (regular : declaration.Regular) (h : declaration.Spells identity texts) :
    (((declaration.pairs texts).map fun pair ↦
      (pair.1.name, AttrValue.scalar (.str pair.2))).map Prod.fst).Nodup := by
  rw [List.map_map]
  exact h.nodup_names regular

theorem get?_of_mem (regular : declaration.Regular) (h : declaration.Spells identity texts)
    {pair : AttributeSpec × String} (hpair : pair ∈ declaration.pairs texts) :
    identity.get? pair.1.name = some (.scalar (.str pair.2)) := by
  have hnodup := h.nodup_keys regular
  rw [h.identity_eq, Dict.get?_ofList hnodup]
  exact Dict.lookupEntry_of_mem hnodup (List.mem_map.2 ⟨pair, hpair, rfl⟩)

theorem mem_of_get? (regular : declaration.Regular) (h : declaration.Spells identity texts)
    {name : String} {value : AttrValue} (hget : identity.get? name = some value) :
    ∃ pair ∈ declaration.pairs texts, pair.1.name = name ∧ value = .scalar (.str pair.2) := by
  rw [h.identity_eq, Dict.get?_ofList (h.nodup_keys regular)] at hget
  obtain ⟨pair, hpair, heq⟩ := List.mem_map.1 (Dict.mem_of_lookupEntry hget)
  obtain ⟨rfl, rfl⟩ := Prod.mk.inj heq
  exact ⟨pair, hpair, rfl, rfl⟩

/-- The encoded values of some of the identity attributes. -/
theorem encodedIdentity_eq (regular : declaration.Regular) (h : declaration.Spells identity texts)
    {pairs : List (AttributeSpec × String)} (hpairs : ∀ pair ∈ pairs, pair ∈ declaration.pairs texts) :
    encodedIdentity (pairs.map Prod.fst) identity =
      pairs.map fun pair ↦ (pair.1.name, pair.1.encoding.wrap (.str pair.2)) := by
  unfold encodedIdentity
  rw [List.filterMap_map, ← List.filterMap_eq_map]
  apply List.filterMap_congr
  intro pair hpair
  rw [Function.comp_apply, h.get?_of_mem regular (hpairs pair hpair)]
  rfl

theorem positional_eq (regular : declaration.Regular) (h : declaration.Spells identity texts) :
    declaration.positional identity =
      (declaration.pairs texts).map fun pair ↦ pair.1.encoding.wrap (.str pair.2) := by
  rw [positional, ← pairs_fst h.length_eq, h.encodedIdentity_eq regular fun _ hpair ↦ hpair,
    List.map_map]
  rfl

theorem length_positional (regular : declaration.Regular) (h : declaration.Spells identity texts) :
    (declaration.positional identity).length = declaration.identityAttributes.length := by
  rw [h.positional_eq regular, List.length_map, ← pairs_fst h.length_eq, List.length_map]

theorem map_text_positional (regular : declaration.Regular) (h : declaration.Spells identity texts) :
    (declaration.positional identity).map Stored.text = texts := by
  have htext (encoding : Encoding) (s : String) : Stored.text (encoding.wrap (.str s)) = s := by
    cases encoding <;> rfl
  rw [h.positional_eq regular, List.map_map]
  refine Eq.trans ?_ (pairs_snd h.length_eq)
  exact List.map_congr_left fun (pair : AttributeSpec × String) _ ↦ htext pair.1.encoding pair.2

/-- The service reads the texts from the leading arguments of a call. -/
theorem identityOf_eq (regular : declaration.Regular) (h : declaration.Spells identity texts)
    (others : List Json) :
    Operation.identityOf declaration (declaration.positional identity ++ others) = .ok texts := by
  have hkeys : declaration.identityKeys.length = (declaration.positional identity).length := by
    rw [h.length_positional regular, identityKeys, List.length_map]
  have hnone : declaration.identityKeys[(declaration.positional identity ++ others).length]? =
      none := by
    rw [List.getElem?_eq_none_iff, List.length_append, hkeys]
    exact Nat.le_add_right _ _
  rw [Operation.identityOf, hnone, hkeys, List.take_left, h.map_text_positional regular]

theorem identityOf_positional (regular : declaration.Regular)
    (h : declaration.Spells identity texts) :
    Operation.identityOf declaration (declaration.positional identity) = .ok texts := by
  have hid := h.identityOf_eq regular []
  rwa [List.append_nil] at hid

end Spells

end Declaration

namespace Ensure

open Declaration

variable {declaration : Declaration} {desired : DesiredState} {identity : Identity}

/-- The checks that a valid request has passed, and the identity that it names. -/
theorem parts_of_validate (h : validate declaration desired = .ok identity) :
    (∃ values, declaration.identityKeys.mapM (identityValue declaration desired.identity) =
        .ok values ∧ identity = .ofList values) ∧
      (∀ name raw, desired.attributes.get? name = some raw →
        checkRequested declaration name raw = .ok ()) ∧
      checkState declaration desired.state = .ok () := by
  obtain ⟨-, -, h⟩ := bind_eq_ok.1 h
  obtain ⟨values, hvalues, h⟩ := bind_eq_ok.1 h
  obtain ⟨⟨⟩, hrequested, h⟩ := bind_eq_ok.1 h
  obtain ⟨⟨⟩, hstate, h⟩ := bind_eq_ok.1 h
  exact ⟨⟨values, hvalues, (Except.ok.inj h).symm⟩,
    fun name raw hraw ↦ forM_eq_ok.1 hrequested (name, raw)
      (desired.attributes.mem_entries_iff.2 hraw), hstate⟩

theorem identityValue_eq_ok (regular : declaration.Regular) {spec : AttributeSpec}
    (hspec : spec ∈ declaration.identityAttributes) {pair : String × AttrValue}
    (h : identityValue declaration identity spec.name = .ok pair) :
    ∃ text, pair = (spec.name, .scalar (.str text)) := by
  obtain ⟨hmem, hidentity⟩ := mem_identityAttributes.1 hspec
  obtain ⟨hcard, hkind, -⟩ := regular.identity_text spec hmem hidentity
  unfold identityValue at h
  split at h
  · simp at h
  obtain ⟨value, hvalue, h⟩ := bind_eq_ok.1 h
  unfold Declaration.normalize at hvalue
  rw [regular.attribute?_of_mem hmem] at hvalue
  obtain ⟨scalars, rfl, hkeeps, -⟩ :=
    (regular.paired spec hmem).canonical_toJson (AttributeSpec.normalize_eq_ok_iff.1 hvalue)
  split at h
  · simp at h
  next hnull =>
    cases Except.ok.inj h
    rw [AttributeSpec.valueOf, hcard] at hnull ⊢
    cases scalars with
    | nil => exact absurd rfl hnull
    | cons v rest =>
      obtain ⟨text, rfl⟩ := (hkeeps v List.mem_cons_self).exists_str hkind
      exact ⟨text, rfl⟩

theorem mapM_identityValue (regular : declaration.Regular) {specs : List AttributeSpec}
    (hspecs : ∀ spec ∈ specs, spec ∈ declaration.identityAttributes)
    {values : List (String × AttrValue)}
    (h : (specs.map (·.name)).mapM (identityValue declaration identity) = .ok values) :
    ∃ texts : List String, texts.length = specs.length ∧
      values = (specs.zip texts).map fun pair ↦ (pair.1.name, .scalar (.str pair.2)) := by
  induction specs generalizing values with
  | nil =>
    cases Except.ok.inj h
    exact ⟨[], rfl, rfl⟩
  | cons spec rest ih =>
    rw [List.map_cons, List.mapM_cons] at h
    obtain ⟨value, hvalue, h⟩ := bind_eq_ok.1 h
    obtain ⟨others, hothers, h⟩ := bind_eq_ok.1 h
    obtain ⟨text, rfl⟩ := identityValue_eq_ok regular (hspecs spec List.mem_cons_self) hvalue
    obtain ⟨texts, hlength, rfl⟩ :=
      ih (fun other hother ↦ hspecs other (List.mem_cons_of_mem _ hother)) hothers
    cases Except.ok.inj h
    exact ⟨text :: texts, by simp [hlength], rfl⟩

/-- A value that a request has for an attribute, in canonical form: its scalars, one at most unless
the attribute is a list. -/
structure Asks (declaration : Declaration) (desired : DesiredState) (spec : AttributeSpec)
    (scalars : List Scalar) : Prop where
  mem : spec ∈ declaration.attributes
  identity : spec.identity = false
  unflagged : declaration.isEnableAttribute spec.name = false
  canonical : ∃ raw, desired.attributes.get? spec.name = some raw ∧
    spec.canonical raw.toJson = .ok (spec.valueOf scalars)
  keeps : ∀ v ∈ scalars, spec.Keeps v
  short : spec.cardinality = .scalar → scalars.length ≤ 1

theorem checkRequested_eq_ok_iff {name : String} {raw : AttrValue} :
    checkRequested declaration name raw = .ok () ↔ ∃ spec value,
      declaration.attribute? name = some spec ∧ spec.identity = false ∧
        declaration.isEnableAttribute name = false ∧ spec.normalize raw.toJson = .ok value := by
  unfold checkRequested
  cases declaration.attribute? name with
  | none => simp
  | some spec =>
    cases hidentity : spec.identity <;> cases declaration.isEnableAttribute name <;>
      simp [bind_eq_ok, hidentity, pure, Except.pure]

theorem checkRequested_eq_ok (regular : declaration.Regular) {name : String} {raw : AttrValue}
    (hraw : desired.attributes.get? name = some raw)
    (h : checkRequested declaration name raw = .ok ()) :
    ∃ spec scalars, spec.name = name ∧ Asks declaration desired spec scalars := by
  obtain ⟨spec, value, hattribute, hidentity, hflag, hvalue⟩ := checkRequested_eq_ok_iff.1 h
  obtain ⟨hspec, rfl⟩ := regular.attribute?_eq_some_iff.1 hattribute
  have hcanonical := AttributeSpec.normalize_eq_ok_iff.1 hvalue
  obtain ⟨scalars, rfl, hkeeps, hshort⟩ := (regular.paired spec hspec).canonical_toJson hcanonical
  exact ⟨spec, scalars, rfl, hspec, hidentity, hflag, ⟨raw, hraw, hcanonical⟩, hkeeps, hshort⟩

/-- What validation makes sure of. -/
structure Valid (declaration : Declaration) (desired : DesiredState) (identity : Identity)
    (texts : List String) : Prop where
  spells : declaration.Spells identity texts
  asks : ∀ name raw, desired.attributes.get? name = some raw →
    ∃ spec scalars, spec.name = name ∧ Asks declaration desired spec scalars
  flagged : desired.state.forcedEnable.isSome → declaration.enable.isSome

/-- Only an object with a flag is validated for a state that forces it. -/
theorem isSome_enable_of_validate (h : validate declaration desired = .ok identity)
    (hforced : desired.state.forcedEnable.isSome) : declaration.enable.isSome := by
  have hstate := (parts_of_validate h).2.2
  unfold checkState at hstate
  split at hstate
  · simp at hstate
  next hnot => simpa [hforced, Option.isSome_iff_ne_none] using hnot

theorem valid_of_validate (regular : declaration.Regular)
    (h : validate declaration desired = .ok identity) :
    ∃ texts, Valid declaration desired identity texts := by
  obtain ⟨⟨values, hvalues, rfl⟩, hrequested, -⟩ := parts_of_validate h
  obtain ⟨texts, hlength, rfl⟩ := mapM_identityValue regular (fun _ hspec ↦ hspec) hvalues
  exact ⟨texts, ⟨hlength, rfl⟩,
    fun name raw hraw ↦ checkRequested_eq_ok regular hraw (hrequested name raw hraw),
    isSome_enable_of_validate h⟩

end Ensure

end DirectoryReconcile
