import DirectoryReconcile.Proofs.Directory.History
import DirectoryReconcile.Proofs.Ensure.Runs

/-!
# Outcomes of runs

How a run ends: at its search, when the request cannot be met, or somewhere along the calls that are
due.
-/

namespace DirectoryReconcile

namespace Ensure

open Declaration Operation Directory

variable {schema : ObjectSchema} {directory : Directory} {allowance : Allowance}
  {desired : DesiredState} {identity : Identity} {texts : List String} {calls : List RemoteCall}

section

variable (hschema : schema ∈ ObjectSchema.builtins) (kept : directory.Kept allowance)

include hschema kept

theorem orderly_of_kept (texts : List String) :
    Orderly schema.toDeclaration (allowance.holds schema.name texts) texts
      (directory.entriesOf schema.name) :=
  ⟨kept.distinct schema hschema, fun _ hentry ↦ kept.sound_focus hschema hentry⟩

/-- A search finds the object as it is stored, unless a failure is injected. -/
theorem run_find (spells : schema.toDeclaration.Spells identity texts) :
    let ran := Exchange.run transport (schema.toDeclaration.find identity) directory
    (directory.faults.get? schema.toDeclaration.methods.find = none ∧
      ran.1 = ⟨.ok (shown schema.toDeclaration identity (directory.focus schema.name texts)), [],
        [schema.toDeclaration.findCall identity]⟩ ∧
      ran.2.Like (directory.withEntries schema.name (directory.entriesOf schema.name))) ∨
    directory.faults.get? schema.toDeclaration.methods.find ≠ none ∧
      (∃ failure, ran.1 = ⟨.error failure, [], [schema.toDeclaration.findCall identity]⟩) ∧
      ran.2.Like directory := by
  have hregular := ObjectSchema.regular_of_mem_builtins hschema
  have hoperation : ofMethod? schema.toDeclaration (schema.toDeclaration.findCall identity).method
      (schema.toDeclaration.findCall identity).arguments = some .find := ofMethod?_find _
  have hsound : ∀ entry ∈ directory.entriesOf schema.name,
      entry.Sound schema.toDeclaration fun _ _ ↦ True := fun entry hentry ↦
    (kept.sound schema hschema entry hentry).mono fun _ _ _ ↦ trivial
  have hobject := object_search hregular spells (kept.distinct schema hschema) hsound
  simp only [Declaration.find, Exchange.run_exchange, transport]
  rcases post_cases kept.registry hschema (by rw [hoperation]; rfl) with
    ⟨hfault, operation, result, after, hoperation', hperform, hpost⟩ | ⟨hrefused, hfails, hpost⟩
  · cases hoperation.symm.trans hoperation'
    rw [perform_find] at hperform
    obtain ⟨rfl, rfl⟩ := Prod.mk.inj (Except.ok.inj hperform)
    refine .inl ⟨hfault, ?_⟩
    rw [hpost]
    simp only [Exchange.answer, Response.fault?_resultBody, hobject]
    exact ⟨rfl, rfl, rfl, rfl⟩
  · have hsome : directory.faults.get? schema.toDeclaration.methods.find ≠ none := fun hnone ↦ by
      have hcarried := hrefused hnone
      unfold carryOut? at hcarried
      rw [hoperation] at hcarried
      simp [Except.toOption] at hcarried
    replace hpost := hpost.resolve_right fun h ↦ hsome h.1
    refine .inr ⟨hsome, ?_⟩
    revert hfails hpost
    generalize directory.post (schema.toDeclaration.findCall identity).method
      (schema.toDeclaration.findCall identity).params = posted
    intro hfails hpost
    obtain ⟨reply, next⟩ := posted
    obtain rfl := hpost
    cases reply with
    | error error => exact ⟨⟨_, rfl⟩, rfl, rfl, rfl⟩
    | ok body =>
      obtain ⟨error, herror⟩ := Option.isSome_iff_exists.1 (hfails body rfl)
      simp only [Exchange.answer, herror]
      exact ⟨⟨_, rfl⟩, rfl, rfl, rfl⟩

/-! ## Runs -/

variable (hservice : schema.name ≠ ObjectSchema.service.name)
  (hvalidate : validate schema.toDeclaration desired = .ok identity)
  (valid : Valid schema.toDeclaration desired identity texts)

include hvalidate valid

/-- A run whose search fails is over. -/
theorem run_of_lost (hfault : directory.faults.get? schema.toDeclaration.methods.find ≠ none) :
    let ran := Exchange.run transport (run schema.toDeclaration desired) directory
    (∃ failure, ran.1.result = .error failure) ∧ ran.2.Like directory := by
  rcases run_find hschema kept valid.spells with ⟨hnone, -⟩ | ⟨-, ⟨failure, hfind⟩, hlike⟩
  · exact absurd hnone hfault
  · rw [run_eq hvalidate, Exchange.run, Exchange.run_bind]
    generalize Exchange.run transport (schema.toDeclaration.find identity) directory = ran
      at hfind hlike ⊢
    obtain ⟨transcript, next⟩ := ran
    obtain rfl := hfind
    exact ⟨⟨failure, rfl⟩, hlike⟩

omit hvalidate valid in
/-- When a run succeeds, its request is valid and its search was carried out. -/
theorem valid_of_ok
    (hok : (Exchange.run transport (run schema.toDeclaration desired) directory).1.result.isOk) :
    ∃ identity texts, target? schema.toDeclaration desired = some texts ∧
      validate schema.toDeclaration desired = .ok identity ∧
      Valid schema.toDeclaration desired identity texts ∧
      directory.faults.get? schema.toDeclaration.methods.find = none := by
  obtain ⟨outcome, hok⟩ := isOk_iff.1 hok
  cases htarget : target? schema.toDeclaration desired with
  | none =>
    obtain ⟨failure, hrun⟩ := run_of_target?_eq_none htarget
    rw [hrun] at hok
    cases hok
  | some texts =>
    obtain ⟨identity, hvalidate, hvalid⟩ :=
      (target?_eq_some (ObjectSchema.regular_of_mem_builtins hschema)).1 htarget
    refine ⟨identity, texts, rfl, hvalidate, hvalid, ?_⟩
    by_contra hfault
    obtain ⟨⟨failure, hresult⟩, -⟩ := run_of_lost hschema kept hvalidate hvalid hfault
    cases hok.symm.trans hresult

/-- A run whose search succeeds goes on with the object as it is stored. -/
theorem run_of_found (hfault : directory.faults.get? schema.toDeclaration.methods.find = none) :
    ∃ next : Directory,
      next.Like (directory.withEntries schema.name (directory.entriesOf schema.name)) ∧
        let ran := Exchange.run transport (run schema.toDeclaration desired) directory
        let rest := Exchange.run transport (conclude schema.toDeclaration desired identity
          (shown schema.toDeclaration identity (directory.focus schema.name texts))) next
        ran.1.result = rest.1.result ∧
          ran.1.posted = schema.toDeclaration.findCall identity :: rest.1.posted ∧
            ran.2 = rest.2 := by
  rcases run_find hschema kept valid.spells with ⟨-, hfind, hlike⟩ | ⟨hsome, -⟩
  · refine ⟨_, hlike, ?_⟩
    rw [run_eq hvalidate, Exchange.run, Exchange.run_bind]
    generalize Exchange.run transport (schema.toDeclaration.find identity) directory = ran
      at hfind ⊢
    obtain ⟨transcript, next⟩ := ran
    obtain rfl := hfind
    exact ⟨rfl, rfl, rfl⟩
  · exact absurd hfault hsome

/-- A run takes the course that follows its search. -/
theorem run_of_takes (hfault : directory.faults.get? schema.toDeclaration.methods.find = none)
    (htakes : ∀ next : Directory,
      next.Like (directory.withEntries schema.name (directory.entriesOf schema.name)) →
        Takes schema next (directory.entriesOf schema.name) calls
          (fun outcome ↦ outcome.changed = !calls.isEmpty)
          (Exchange.run transport (conclude schema.toDeclaration desired identity
            (shown schema.toDeclaration identity (directory.focus schema.name texts))) next)) :
    let ran := Exchange.run transport (run schema.toDeclaration desired) directory
    ∃ posted after, Course schema.toDeclaration directory.faults (directory.entriesOf schema.name)
        calls posted ran.1.failure? after ∧
      ran.1.posted = schema.toDeclaration.findCall identity :: posted ∧
        ran.2.Like (directory.withEntries schema.name after) ∧
          ∀ outcome, ran.1.result = .ok outcome → outcome.changed = !calls.isEmpty := by
  obtain ⟨next, hlike, hresult, hposted, hnext⟩ :=
    run_of_found hschema kept hvalidate valid hfault
  have htakes := htakes next hlike
  obtain ⟨after, hcourse, hafter⟩ := htakes.course
  intro ran
  have hfailure : ran.1.failure? = (Exchange.run transport (conclude schema.toDeclaration desired
      identity (shown schema.toDeclaration identity (directory.focus schema.name texts)))
      next).1.failure? := by
    rw [Transcript.failure?, Transcript.failure?, hresult]
  refine ⟨_, after, hfailure ▸ hlike.faults ▸ hcourse, hposted, ?_, fun outcome houtcome ↦ ?_⟩
  · rw [hnext]
    exact hafter.trans ((hlike.withEntries _ _).trans (withEntries_withEntries _ _ _ _))
  · exact htakes.good outcome (hresult ▸ houtcome)

include hservice

/-- A run whose request cannot be met posts nothing after its search. -/
theorem run_of_not_due (hfault : directory.faults.get? schema.toDeclaration.methods.find = none)
    (h : ∀ calls, ¬Due schema.toDeclaration desired identity (directory.focus schema.name texts) calls) :
    ∃ failure, (Exchange.run transport (run schema.toDeclaration desired) directory).1.result =
      .error failure := by
  obtain ⟨next, -, hresult, -⟩ := run_of_found hschema kept hvalidate valid hfault
  obtain ⟨failure, hconclude⟩ := conclude_of_not_due hschema hservice valid
    (orderly_of_kept hschema kept texts) rfl h
  exact ⟨failure, by rw [hresult, Directory.focus, hconclude]; rfl⟩

variable (hdry : desired.dryRun = false)
  (hallowed : ∀ spec scalars, Asks schema.toDeclaration desired spec scalars → spec.isList = true →
    ∀ v ∈ scalars, allowance.holds schema.name texts spec.name v)

include hdry hallowed

/-- The calls that are due after the search of a run take their course. -/
theorem run_of_due (hfault : directory.faults.get? schema.toDeclaration.methods.find = none)
    (hdue : Due schema.toDeclaration desired identity (directory.focus schema.name texts) calls) :
    let ran := Exchange.run transport (run schema.toDeclaration desired) directory
    ∃ posted after, Course schema.toDeclaration directory.faults (directory.entriesOf schema.name)
        calls posted ran.1.failure? after ∧
      ran.1.posted = schema.toDeclaration.findCall identity :: posted ∧
        ran.2.Like (directory.withEntries schema.name after) ∧
          ∀ outcome, ran.1.result = .ok outcome → outcome.changed = !calls.isEmpty := by
  refine run_of_takes hschema kept hvalidate valid hfault fun next hlike ↦ ?_
  exact takes_conclude hschema hservice valid hallowed (hlike.registry.trans kept.registry)
    hlike.get?_objects (orderly_of_kept hschema kept texts) rfl hdry hdue

end

end Ensure

end DirectoryReconcile
