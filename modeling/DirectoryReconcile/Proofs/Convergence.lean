import DirectoryReconcile.Proofs.Ensure.Outcomes

/-!
# Convergence

A run that succeeded leaves nothing to do for the same request. A run that failed, at whatever call,
leaves exactly the calls that it did not carry out: the next run ends where the first one would have
ended.
-/

namespace DirectoryReconcile

namespace Directory

open Exchange Entry Ensure

variable {history : History} {directory : Directory} {schema : ObjectSchema}
  {desired : DesiredState} {identity : Identity} {texts : List String} {calls : List RemoteCall}
  {final : List Entry}

/-- A request without dry run for an object of a known type other than a service. -/
structure Requestable (history : History) (schema : ObjectSchema) (desired : DesiredState)
    (identity : Identity) (texts : List String) : Prop where
  schema_mem : schema ∈ ObjectSchema.builtins
  not_service : schema.name ≠ ObjectSchema.service.name
  wet : desired.dryRun = false
  validate_eq : validate schema.toDeclaration desired = .ok identity
  valid : Valid schema.toDeclaration desired identity texts
  allowed : ∀ spec scalars, Asks schema.toDeclaration desired spec scalars → spec.isList = true →
    ∀ v ∈ scalars, Requested ((schema, desired) :: history) schema.name texts spec.name v
  unambiguous : Unambiguous ((schema, desired) :: history) schema.name texts

/-- The calls that are due for the target of a request, and the entries that they lead to. -/
structure Leads (schema : ObjectSchema) (desired : DesiredState) (identity : Identity)
    (texts : List String) (entries : List Entry) (calls : List RemoteCall) (final : List Entry) :
    Prop where
  due : Due schema.toDeclaration desired identity (Entry.focus texts entries) calls
  course : Course schema.toDeclaration ∅ entries calls calls none final

theorem entriesOf_of_get? {type : String} {entries : List Entry}
    (h : directory.objects.get? type = some entries) : directory.entriesOf type = entries := by
  unfold entriesOf
  rw [h, Option.getD_some]

section

variable (request : Requestable history schema desired identity texts)
  (kept : directory.Kept (requests ((schema, desired) :: history)))
  (leads : Leads schema desired identity texts (directory.entriesOf schema.name) calls final)

include request kept leads

/-- Without injected failures all calls that are due are carried out. -/
theorem Leads.run (hfaults : directory.faults = ∅) :
    let ran := Exchange.run transport (Ensure.run schema.toDeclaration desired) directory
    (∃ outcome, ran.1.result = .ok outcome ∧ outcome.changed = !calls.isEmpty) ∧
      ran.1.posted = schema.toDeclaration.findCall identity :: calls ∧
        ran.2.Like (directory.withEntries schema.name final) := by
  intro ran
  have hfault : directory.faults.get? schema.toDeclaration.methods.find = none := by
    rw [hfaults, Dict.get?_empty]
  obtain ⟨posted, after, hcourse, hposted, hlike, hchanged⟩ :=
    run_of_due request.schema_mem kept request.not_service request.validate_eq request.valid
      request.wet request.allowed hfault leads.due
  rw [hfaults] at hcourse
  obtain ⟨hfailure, rfl, rfl⟩ := leads.course.unique hcourse
  refine ⟨?_, hposted, hlike⟩
  cases hresult : ran.1.result with
  | ok outcome => exact ⟨outcome, rfl, hchanged outcome hresult⟩
  | error failure =>
    unfold Transcript.failure? at hfailure
    rw [hresult] at hfailure
    simp at hfailure

/-- Whatever calls of a run failed, the others are due afterwards and lead to the same entries. -/
theorem Leads.after_run :
    let ran := Exchange.run transport (Ensure.run schema.toDeclaration desired) directory
    ran.2.objects.insert schema.name final = directory.objects.insert schema.name final ∧
      ∃ rest, Leads schema desired identity texts (ran.2.entriesOf schema.name) rest final ∧
        (ran.1.result.isOk → rest = [] ∧ ran.2.objects.get? schema.name = some final) := by
  intro ran
  by_cases hfault : directory.faults.get? schema.toDeclaration.methods.find = none
  · obtain ⟨posted, after, hcourse, -, hlike, -⟩ :=
      run_of_due request.schema_mem kept request.not_service request.validate_eq request.valid
        request.wet request.allowed hfault leads.due
    have hregular := ObjectSchema.regular_of_mem_builtins request.schema_mem
    have hidle := ObjectSchema.idle_of_mem_builtins request.schema_mem request.not_service
    obtain ⟨-, rest, hdue, hnone, hfinal⟩ := leads.due.after_course hregular hidle request.valid
      request.allowed request.unambiguous (orderly_of_kept request.schema_mem kept texts) hcourse
    have hafter : ran.2.objects.get? schema.name = some after := hlike.get?_objects
    refine ⟨?_, rest, ?_, ?_⟩
    · rw [hlike.objects]
      exact Dict.insert_insert _ _ _ _
    · rw [entriesOf_of_get? hafter]
      exact ⟨hdue, hfinal final leads.course⟩
    · intro hok
      obtain ⟨outcome, houtcome⟩ := isOk_iff.1 hok
      obtain rfl := hnone (by rw [Transcript.failure?, houtcome])
      cases hfinal final leads.course
      exact ⟨rfl, hafter⟩
  · obtain ⟨⟨failure, hresult⟩, hlike⟩ :=
      run_of_lost request.schema_mem kept request.validate_eq request.valid hfault
    refine ⟨congrArg (·.insert schema.name final) hlike.objects, calls, ?_, ?_⟩
    · unfold entriesOf
      rw [hlike.objects]
      exact leads
    · intro hok
      rw [hresult] at hok
      cases hok

end

/-- When a run succeeds, calls were due, and it carried them out. -/
theorem exists_course_of_ok (kept : directory.Kept (requests history))
    (hschema : schema ∈ ObjectSchema.builtins) (hservice : schema.name ≠ ObjectSchema.service.name)
    (hdry : desired.dryRun = false)
    (hok : (Exchange.run transport (Ensure.run schema.toDeclaration desired)
      directory).1.result.isOk) :
    ∃ identity texts calls final, target? schema.toDeclaration desired = some texts ∧
      validate schema.toDeclaration desired = .ok identity ∧
      Valid schema.toDeclaration desired identity texts ∧
      Due schema.toDeclaration desired identity (directory.focus schema.name texts) calls ∧
      Course schema.toDeclaration directory.faults (directory.entriesOf schema.name) calls calls none
        final ∧
      (Exchange.run transport (Ensure.run schema.toDeclaration desired) directory).2.Like
        (directory.withEntries schema.name final) := by
  obtain ⟨identity, texts, htarget, hvalidate, hvalid, hfault⟩ := valid_of_ok hschema kept hok
  obtain ⟨outcome, hok⟩ := isOk_iff.1 hok
  have hallowed := @requested_of_asks history schema desired texts hschema htarget
  by_cases hdue : ∃ calls, Due schema.toDeclaration desired identity
      (directory.focus schema.name texts) calls
  · obtain ⟨calls, hdue⟩ := hdue
    obtain ⟨posted, final, hcourse, -, hlike, -⟩ := run_of_due hschema
      (kept.requested schema desired) hservice hvalidate hvalid hdry hallowed hfault hdue
    unfold Transcript.failure? at hcourse
    rw [hok] at hcourse
    obtain rfl := hcourse.posted_eq
    exact ⟨identity, texts, posted, final, htarget, hvalidate, hvalid, hdue, hcourse, hlike⟩
  · obtain ⟨failure, hresult⟩ := run_of_not_due hschema kept hservice hvalidate hvalid hfault
      fun calls h ↦ hdue ⟨calls, h⟩
    cases hok.symm.trans hresult

/-- When a run succeeds without injected failures, calls were due that lead to the entries which it
leaves. -/
theorem exists_leads (kept : directory.Kept (requests history)) (hfaults : directory.faults = ∅)
    (hschema : schema ∈ ObjectSchema.builtins) (hservice : schema.name ≠ ObjectSchema.service.name)
    (hdry : desired.dryRun = false)
    (hunambiguous : ∀ texts, target? schema.toDeclaration desired = some texts →
      Unambiguous ((schema, desired) :: history) schema.name texts)
    (hok : (Exchange.run transport (Ensure.run schema.toDeclaration desired)
      directory).1.result.isOk) :
    ∃ identity texts calls final, Requestable history schema desired identity texts ∧
      Leads schema desired identity texts (directory.entriesOf schema.name) calls final := by
  obtain ⟨identity, texts, calls, final, htarget, hvalidate, hvalid, hdue, hcourse, -⟩ :=
    exists_course_of_ok kept hschema hservice hdry hok
  rw [hfaults] at hcourse
  exact ⟨identity, texts, calls, final,
    ⟨hschema, hservice, hdry, hvalidate, hvalid, requested_of_asks hschema htarget,
      hunambiguous texts htarget⟩, ⟨hdue, hcourse⟩⟩

/-- A request that was met is met: another run for it posts its search only, changes nothing and
reports so. -/
theorem ensure_idempotent (reached : Reached history directory)
    (hschema : schema ∈ ObjectSchema.builtins) (hservice : schema.name ≠ ObjectSchema.service.name)
    (hdry : desired.dryRun = false)
    (hunambiguous : ∀ texts, target? schema.toDeclaration desired = some texts →
      Unambiguous ((schema, desired) :: history) schema.name texts)
    (hok : (Exchange.run transport (Ensure.run schema.toDeclaration desired)
      directory.clearFaults).1.result.isOk) :
    let first := Exchange.run transport (Ensure.run schema.toDeclaration desired) directory.clearFaults
    let again := Exchange.run transport (Ensure.run schema.toDeclaration desired) first.2
    (∃ outcome, again.1.result = .ok outcome ∧ outcome.changed = false) ∧
      (∃ identity, validate schema.toDeclaration desired = .ok identity ∧
        again.1.posted = [schema.toDeclaration.findCall identity]) ∧
      again.2.objects = first.2.objects := by
  intro first again
  have hkept := reached.clearFaults.kept
  obtain ⟨identity, texts, calls, final, request, leads⟩ :=
    exists_leads hkept rfl hschema hservice hdry hunambiguous hok
  obtain ⟨-, rest, hrest, hdone⟩ := leads.after_run request (hkept.requested schema desired)
  obtain ⟨rfl, hfinal⟩ := hdone hok
  have hfaults : first.2.faults = ∅ := (leads.run request (hkept.requested schema desired) rfl).2.2.faults
  obtain ⟨hresult, hposted, hlike⟩ := hrest.run request (hkept.run hschema desired) hfaults
  refine ⟨hresult, ⟨identity, request.validate_eq, hposted⟩, ?_⟩
  calc again.2.objects
    _ = first.2.objects.insert schema.name final := hlike.objects
    _ = first.2.objects := Dict.insert_get? first.2.objects hfinal

/-- A user that is to be disabled and have two mail addresses. -/
def disabledUser : DesiredState where
  identity := .ofList [("uid", .scalar (.str "alice"))]
  attributes := .ofList [("sn", .scalar (.str "Ashe")),
    ("mail", .list [.str "alice@example.org", .str "a.ashe@example.org"])]
  state := .disabled
  dryRun := false

theorem ensure_idempotent_disabledUser :
    let first := Exchange.run transport (Ensure.run ObjectSchema.user.toDeclaration disabledUser)
      (ofRegistry .builtin).clearFaults
    let again := Exchange.run transport (Ensure.run ObjectSchema.user.toDeclaration disabledUser) first.2
    (∃ outcome, again.1.result = .ok outcome ∧ outcome.changed = false) ∧
      (∃ identity, validate ObjectSchema.user.toDeclaration disabledUser = .ok identity ∧
        again.1.posted = [ObjectSchema.user.toDeclaration.findCall identity]) ∧
      again.2.objects = first.2.objects :=
  ensure_idempotent .empty (by simp [ObjectSchema.builtins]) (by decide +kernel) rfl
    (fun texts _ ↦ Spelled.unambiguous (by decide +kernel) _ texts) (by decide +kernel)

/-- After a run that failed at any of its calls, or at none, another run for the same request ends
where a run without failures would have ended. -/
theorem ensure_converges (reached : Reached history directory)
    (hschema : schema ∈ ObjectSchema.builtins) (hservice : schema.name ≠ ObjectSchema.service.name)
    (hdry : desired.dryRun = false)
    (hunambiguous : ∀ texts, target? schema.toDeclaration desired = some texts →
      Unambiguous ((schema, desired) :: history) schema.name texts)
    (hok : (Exchange.run transport (Ensure.run schema.toDeclaration desired)
      directory.clearFaults).1.result.isOk) (faults : Dict InjectedFault) :
    let whole := Exchange.run transport (Ensure.run schema.toDeclaration desired) directory.clearFaults
    let failed := Exchange.run transport (Ensure.run schema.toDeclaration desired)
      (directory.withFaults faults)
    let again := Exchange.run transport (Ensure.run schema.toDeclaration desired) failed.2.clearFaults
    again.1.result.isOk ∧ again.2.objects = whole.2.objects := by
  intro whole failed again
  have hkept := reached.kept
  obtain ⟨identity, texts, calls, final, request, leads⟩ :=
    exists_leads (hkept.withFaults ∅) rfl hschema hservice hdry hunambiguous hok
  have hwhole := (leads.run request ((hkept.withFaults ∅).requested schema desired) rfl).2.2.objects
  have hfaulted := (hkept.withFaults faults).requested schema desired
  obtain ⟨hobjects, rest, hrest, -⟩ := leads.after_run request hfaulted
  have hkept' := ((hkept.withFaults faults).run hschema desired).withFaults ∅
  obtain ⟨⟨outcome, hresult, -⟩, -, hlike⟩ := hrest.run request hkept' rfl
  apply And.intro (isOk_iff.2 ⟨outcome, hresult⟩)
  calc again.2.objects
    _ = failed.2.clearFaults.objects.insert schema.name final := hlike.objects
    _ = (directory.withFaults faults).objects.insert schema.name final := hobjects
    _ = whole.2.objects := hwhole.symm

theorem ensure_converges_disabledUser :
    let whole := Exchange.run transport (Ensure.run ObjectSchema.user.toDeclaration disabledUser)
      (ofRegistry .builtin).clearFaults
    let failed := Exchange.run transport (Ensure.run ObjectSchema.user.toDeclaration disabledUser)
      ((ofRegistry .builtin).withFaults (.ofList [("user_disable", .transport "connection reset")]))
    let again := Exchange.run transport (Ensure.run ObjectSchema.user.toDeclaration disabledUser)
      failed.2.clearFaults
    again.1.result.isOk ∧ again.2.objects = whole.2.objects :=
  ensure_converges .empty (by simp [ObjectSchema.builtins]) (by decide +kernel) rfl
    (fun texts _ ↦ Spelled.unambiguous (by decide +kernel) _ texts) (by decide +kernel) _

end Directory

end DirectoryReconcile
