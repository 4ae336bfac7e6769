import DirectoryReconcile.Proofs.Ensure.Confinement

/-!
# Directories that requests lead to

The directories that start out empty and only change by runs of requests for known types. All their
entries are sound, and a list holds only values that were requested for it at some time.
-/

namespace DirectoryReconcile

namespace DesiredState

/-- The values requested for a list attribute, in canonical form. -/
def listValues (desired : DesiredState) (declaration : Declaration) (name : String) : List Scalar :=
  match (desired.attributes.get? name).map fun value ↦ declaration.normalize name value.toJson with
  | some (.ok (.list values)) => values
  | _ => []

end DesiredState

namespace Ensure

variable {declaration : Declaration} {desired : DesiredState} {identity : Identity}
  {texts : List String}

/-- The texts that name the object of a valid request. -/
def target? (declaration : Declaration) (desired : DesiredState) : Option (List String) :=
  (validate declaration desired).toOption.map fun identity ↦
    (declaration.positional identity).map Stored.text

theorem target?_eq_some (regular : declaration.Regular) :
    target? declaration desired = some texts ↔ ∃ identity,
      validate declaration desired = .ok identity ∧ Valid declaration desired identity texts := by
  unfold target?
  cases hvalidate : validate declaration desired with
  | error failure => simp [Except.toOption]
  | ok identity =>
    obtain ⟨own, hvalid⟩ := valid_of_validate regular hvalidate
    simp only [Except.toOption, Option.map_some, Option.some.injEq, Except.ok.injEq,
      hvalid.spells.map_text_positional regular]
    constructor
    · rintro rfl
      exact ⟨identity, rfl, hvalid⟩
    · rintro ⟨_, rfl, hvalid'⟩
      rw [← hvalid'.spells.map_text_positional regular, hvalid.spells.map_text_positional regular]

/-- A request without a target posts nothing. -/
theorem run_of_target?_eq_none (h : target? declaration desired = none) :
    ∃ failure, run declaration desired = .fail failure := by
  cases hvalidate : validate declaration desired with
  | error failure => exact ⟨failure, by rw [run, hvalidate]; rfl⟩
  | ok identity => simp [target?, hvalidate, Except.toOption] at h

theorem Asks.listValues_eq (regular : declaration.Regular) {spec : AttributeSpec}
    {scalars : List Scalar} (h : Asks declaration desired spec scalars) (hlist : spec.isList = true) :
    desired.listValues declaration spec.name = scalars := by
  obtain ⟨raw, hraw, hcanonical⟩ := h.canonical
  rw [AttributeSpec.valueOf_of_isList hlist] at hcanonical
  simp only [DesiredState.listValues, hraw, Option.map_some, Declaration.normalize,
    regular.attribute?_of_mem h.mem, AttributeSpec.normalize_eq_ok_iff.2 hcanonical]

end Ensure

namespace Directory

open Exchange Entry Ensure

/-- The requests run so far, the last one first. -/
abbrev History := List (ObjectSchema × DesiredState)

/-- The directories that runs of requests lead to from the empty one. Failures may be injected and
cleared between the runs. -/
inductive Reached : History → Directory → Prop
  | empty : Reached [] (ofRegistry .builtin)
  | ensure {history : History} {directory : Directory} {schema : ObjectSchema}
      (desired : DesiredState) (h : Reached history directory)
      (hschema : schema ∈ ObjectSchema.builtins) :
    Reached ((schema, desired) :: history)
      (Exchange.run transport (Ensure.run schema.toDeclaration desired) directory).2
  | inject {history : History} {directory : Directory} (method : String) (fault : InjectedFault)
      (h : Reached history directory) : Reached history (directory.inject method fault)
  | clearFaults {history : History} {directory : Directory} (h : Reached history directory) :
    Reached history directory.clearFaults

/-- A value was requested for a list attribute of an object. -/
def Requested (history : History) (type : String) (identity : List String) (name : String)
    (v : Scalar) : Prop :=
  ∃ request ∈ history, request.1.name = type ∧
    (∃ own, target? request.1.toDeclaration request.2 = some own ∧ sameIdentity own identity) ∧
      v ∈ request.2.listValues request.1.toDeclaration name

/-- No two values requested for one list attribute of an object are the same but for their
spelling. -/
def Unambiguous (history : History) (type : String) (identity : List String) : Prop :=
  ∀ name v w, Requested history type identity name v → Requested history type identity name w →
    v.sameName w = true → v = w

/-- No two values that these requests have for one list attribute, of whatever object, are the same
but for their spelling. -/
def Spelled (history : History) : Prop :=
  ∀ first ∈ history, ∀ second ∈ history, ∀ name ∈ first.2.attributes.keys,
    ∀ v ∈ first.2.listValues first.1.toDeclaration name,
      ∀ w ∈ second.2.listValues second.1.toDeclaration name, v.sameName w = true → v = w

instance (history : History) : Decidable (Spelled history) :=
  inferInstanceAs (Decidable (∀ first ∈ history, ∀ second ∈ history, ∀ name ∈ first.2.attributes.keys,
    ∀ v ∈ first.2.listValues first.1.toDeclaration name,
      ∀ w ∈ second.2.listValues second.1.toDeclaration name, v.sameName w = true → v = w))

/-- Lists may hold what was requested for them. -/
def requests (history : History) : Allowance where
  holds := Requested history
  congr := by
    rintro type first second hsame name v ⟨request, hmem, htype, ⟨own, htarget, hown⟩, hv⟩
    exact ⟨request, hmem, htype, ⟨own, htarget, sameIdentity_trans hown hsame⟩, hv⟩

/-- Lists may hold anything. -/
def anything : Allowance where
  holds := fun _ _ _ _ ↦ True
  congr := fun _ _ _ _ ↦ trivial

variable {history : History} {directory : Directory} {schema : ObjectSchema}
  {desired : DesiredState} {texts : List String}

theorem Spelled.unambiguous (h : Spelled history) (type : String) (identity : List String) :
    Unambiguous history type identity := by
  rintro name v w ⟨first, hfirst, -, -, hv⟩ ⟨second, hsecond, -, -, hw⟩
  refine h first hfirst second hsecond name ?_ v hv w hw
  cases hget : first.2.attributes.get? name with
  | some value => exact (first.2.attributes.contains_iff name).1 (by simp [Dict.contains, hget])
  | none => simp [DesiredState.listValues, hget] at hv

theorem Kept.mono {allowance wider : Allowance} (kept : directory.Kept allowance)
    (h : ∀ type identity name v, allowance.holds type identity name v →
      wider.holds type identity name v) : directory.Kept wider :=
  ⟨kept.registry, kept.distinct, fun schema hschema entry hentry ↦
    (kept.sound schema hschema entry hentry).mono (h _ _)⟩

theorem requested_of_asks (hschema : schema ∈ ObjectSchema.builtins)
    (htarget : target? schema.toDeclaration desired = some texts) :
    ∀ spec scalars, Asks schema.toDeclaration desired spec scalars → spec.isList = true →
      ∀ v ∈ scalars,
        (requests ((schema, desired) :: history)).holds schema.name texts spec.name v := by
  intro spec scalars hasks hlist v hv
  refine ⟨(schema, desired), List.mem_cons_self, rfl, ⟨texts, htarget, sameIdentity_refl texts⟩, ?_⟩
  rwa [hasks.listValues_eq (ObjectSchema.regular_of_mem_builtins hschema) hlist]

/-- A request acts on its target only and gives it only values requested so far. -/
theorem confined_of_target (hschema : schema ∈ ObjectSchema.builtins) (history : History)
    (htarget : target? schema.toDeclaration desired = some texts) :
    (Ensure.run schema.toDeclaration desired).Confined (requests ((schema, desired) :: history))
      schema texts := by
  obtain ⟨identity, hvalidate, hvalid⟩ :=
    (target?_eq_some (ObjectSchema.regular_of_mem_builtins hschema)).1 htarget
  exact confined_run hschema hvalid (requested_of_asks hschema htarget) hvalidate

theorem Kept.requested (kept : directory.Kept (requests history)) (schema : ObjectSchema)
    (desired : DesiredState) : directory.Kept (requests ((schema, desired) :: history)) :=
  kept.mono fun _ _ _ _ ⟨request, hmem, hrest⟩ ↦ ⟨request, List.mem_cons_of_mem _ hmem, hrest⟩

/-- A run keeps a directory in order, whatever failures are injected. -/
theorem Kept.run (kept : directory.Kept (requests history)) (hschema : schema ∈ ObjectSchema.builtins)
    (desired : DesiredState) :
    (Exchange.run transport (Ensure.run schema.toDeclaration desired) directory).2.Kept
      (requests ((schema, desired) :: history)) := by
  have hkept := kept.requested schema desired
  cases htarget : target? schema.toDeclaration desired with
  | none =>
    obtain ⟨failure, hrun⟩ := run_of_target?_eq_none htarget
    rw [hrun]
    exact hkept
  | some texts =>
    exact (run_confined hschema (confined_of_target hschema history htarget) hkept).2.kept

/-- A directory with these failures injected and no others. -/
def withFaults (directory : Directory) (faults : Dict InjectedFault) : Directory :=
  { directory with faults := faults }

theorem Kept.withFaults {allowance : Allowance} (kept : directory.Kept allowance)
    (faults : Dict InjectedFault) : (directory.withFaults faults).Kept allowance :=
  ⟨kept.registry, kept.distinct, kept.sound⟩

theorem Reached.kept (h : Reached history directory) : directory.Kept (requests history) := by
  induction h with
  | empty =>
    refine ⟨rfl, fun schema _ ↦ .nil, fun schema _ entry hentry ↦ ?_⟩
    exact absurd hentry List.not_mem_nil
  | ensure desired _ hschema ih => exact ih.run hschema desired
  | inject method fault _ ih => exact ih.withFaults _
  | clearFaults _ ih => exact ih.withFaults _

end Directory

end DirectoryReconcile
