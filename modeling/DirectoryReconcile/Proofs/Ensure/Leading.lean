import DirectoryReconcile.Proofs.Ensure.Validation
import DirectoryReconcile.Proofs.Schema.Acceptance

/-!
# Identities in calls

An accepted declaration tells its attributes apart by their names. The identity that a valid request
gives in canonical form is therefore spelled out in full, in the order of the attributes, wherever a
call takes it as positional arguments.
-/

namespace DirectoryReconcile

namespace Ensure

open Declaration

/-- An argument is what a request gives for an attribute of its identity: the value in canonical
form, which is not empty, as it is written into calls. -/
def SpellsOut (desired : DesiredState) (spec : AttributeSpec) (argument : Json) : Prop :=
  ∃ raw value, desired.identity.get? spec.name = some raw ∧
    spec.normalize raw.toJson = .ok value ∧ value ≠ .scalar .null ∧ argument = spec.encode value

/-- The positional arguments of a call start with the identity, in the order of its attributes. -/
def Leads (declaration : Declaration) (desired : DesiredState) (call : RemoteCall) : Prop :=
  ∃ arguments others, call.positional = arguments ++ others ∧
    List.Forall₂ (SpellsOut desired) declaration.identityAttributes arguments

variable {declaration : Declaration} {desired : DesiredState} {identity : Identity}
  {call : RemoteCall}

theorem identityValue_eq_ok_iff {name : String} {pair : String × AttrValue} :
    identityValue declaration desired.identity name = .ok pair ↔ pair.1 = name ∧
      ∃ raw, desired.identity.get? name = some raw ∧
        declaration.normalize name raw.toJson = .ok pair.2 ∧ pair.2 ≠ .scalar .null := by
  obtain ⟨key, value⟩ := pair
  unfold identityValue
  cases desired.identity.get? name with
  | none => simp
  | some raw =>
    simp only [bind_eq_ok, Option.some.injEq, exists_eq_left']
    constructor
    · rintro ⟨other, hother, h⟩
      split at h
      · simp at h
      next hnull =>
        obtain ⟨rfl, rfl⟩ := Prod.mk.inj (Except.ok.inj h)
        exact ⟨rfl, hother, hnull⟩
    · rintro ⟨rfl, hvalue, hnull⟩
      exact ⟨value, hvalue, if_neg hnull⟩

/-- The identity of a valid request has for each attribute what is requested, in canonical form. -/
theorem get?_identity (hnodup : (declaration.attributes.map (·.name)).Nodup)
    (hvalidate : validate declaration desired = .ok identity) {spec : AttributeSpec}
    (hspec : spec ∈ declaration.identityAttributes) :
    ∃ value, identity.get? spec.name = some value ∧ value ≠ .scalar .null ∧
      ∃ raw, desired.identity.get? spec.name = some raw ∧ spec.normalize raw.toJson = .ok value := by
  obtain ⟨⟨values, hvalues, rfl⟩, -, -⟩ := parts_of_validate hvalidate
  have hkeys : declaration.identityKeys = values.map (·.1) :=
    List.forall₂_eq_eq_eq ▸ List.forall₂_map_right_iff.2
      ((mapM_eq_ok.1 hvalues).imp fun _ _ h ↦ (identityValue_eq_ok_iff.1 h).1.symm)
  have hnames : (values.map (·.1)).Nodup := hkeys ▸ hnodup.sublist (List.filter_sublist.map _)
  have hname : spec.name ∈ values.map (·.1) := hkeys ▸ List.mem_map_of_mem hspec
  obtain ⟨pair, hpair, hfst⟩ := List.mem_map.1 hname
  obtain ⟨name, -, hvalue⟩ := (mem_of_mapM hvalues).1 hpair
  obtain ⟨rfl, raw, hraw, hnormalize, hnull⟩ := identityValue_eq_ok_iff.1 hvalue
  rw [hfst] at hraw hnormalize
  have hattribute : declaration.attribute? spec.name = some spec :=
    (named?_eq_some_iff hnodup).2 ⟨(mem_identityAttributes.1 hspec).1, rfl⟩
  unfold Declaration.normalize at hnormalize
  rw [hattribute] at hnormalize
  refine ⟨pair.2, ?_, hnull, raw, hraw, hnormalize⟩
  rw [Dict.get?_ofList hnames, ← hfst]
  exact Dict.lookupEntry_of_mem hnames hpair

theorem forall₂_encodedIdentity {R : AttributeSpec → Json → Prop} {specs : List AttributeSpec}
    (h : ∀ spec ∈ specs, ∃ value, identity.get? spec.name = some value ∧
      R spec (spec.encode value)) :
    List.Forall₂ R specs ((encodedIdentity specs identity).map (·.2)) := by
  induction specs with
  | nil => exact .nil
  | cons spec rest ih =>
    obtain ⟨⟨value, hget, hvalue⟩, hrest⟩ := List.forall_mem_cons.1 h
    have hhead : encodedIdentity (spec :: rest) identity =
        (spec.name, spec.encode value) :: encodedIdentity rest identity := by
      unfold encodedIdentity
      rw [List.filterMap_cons, hget]
      rfl
    rw [hhead, List.map_cons]
    exact .cons hvalue (ih hrest)

/-- A call that starts with the positional identity of a valid request starts with what the request
spells out. -/
theorem leads_of_prefix (schema : ObjectSchema)
    (hvalidate : validate schema.toDeclaration desired = .ok identity)
    (h : schema.toDeclaration.positional identity <+: call.positional) :
    Leads schema.toDeclaration desired call := by
  obtain ⟨others, hothers⟩ := h
  refine ⟨_, others, hothers.symm, forall₂_encodedIdentity fun spec hspec ↦ ?_⟩
  obtain ⟨value, hget, hnull, raw, hraw, hnormalize⟩ :=
    get?_identity schema.names_nodup hvalidate hspec
  exact ⟨value, hget, raw, value, hraw, hnormalize, hnull, rfl⟩

end Ensure

end DirectoryReconcile
