import DirectoryReconcile.Proofs.Ensure.Again

/-!
# Repeated requests for services

The hook hides the canonical principal of a service among the aliases that it stores, but a request
for it stays. The request is therefore met once and for all unless it has the canonical principal
among the aliases, or a value that the service stores in another spelling.
-/

namespace DirectoryReconcile

namespace Ensure

open Exchange Declaration Entry Directory

variable {schema : ObjectSchema} {directory : Directory} {allowance : Allowance}
  {canonical aliases : AttributeSpec} {desired : DesiredState} {identity : Identity}
  {texts : List String} {changes : ChangeSet} {entries : List Entry} {found : RemoteObject}
  {held : Option Entry} {allowed : String → Scalar → Prop}

/-- The values that are requested for lists are shown if they are stored and the canonical principal
is not requested among the aliases. -/
theorem stock_withoutCanonical_iff {declaration : Declaration} (regular : declaration.Regular)
    (aliased : declaration.Aliased canonical aliases)
    (hheld : ∀ entry ∈ held, entry.Sound declaration allowed) :
    (∀ spec ∈ declaration.attributes, spec.isList = true →
        ∀ v ∈ (asked desired spec).getD [], v ∈ stock (held.map withoutCanonical) spec) ↔
      (∀ spec ∈ declaration.attributes, spec.isList = true →
        ∀ value ∈ requested desired spec, value ∈ holdings (held.map (·.attrs)) spec) ∧
      ∀ value ∈ requested desired aliases, value ∉ holdings (held.map (·.attrs)) canonical := by
  have hmem := aliased.aliases_mem
  have hshown {spec : AttributeSpec} (hspec : spec ∈ declaration.attributes) (v : Scalar) :
      v ∈ stock (held.map withoutCanonical) spec ↔
        v.toJson ∈ holdings (held.map (·.attrs)) spec ∧
          (spec = aliases → v.toJson ∉ holdings (held.map (·.attrs)) canonical) := by
    rw [toJson_mem_holdings regular hheld hspec,
      toJson_mem_holdings regular hheld (mem_identityAttributes.1 aliased.canonical_mem).1]
    exact mem_stock_withoutCanonical regular aliased hheld hspec
  constructor
  · intro hall
    refine ⟨fun spec hspec hlist value hvalue ↦ ?_, fun value hvalue ↦ ?_⟩
    · obtain ⟨v, rfl⟩ := exists_of_mem_requested hvalue
      exact ((hshown hspec v).1 (hall spec hspec hlist v (mem_requested.1 hvalue))).1
    · obtain ⟨v, rfl⟩ := exists_of_mem_requested hvalue
      have hall := hall aliases hmem aliased.aliases_list v (mem_requested.1 hvalue)
      exact ((hshown hmem v).1 hall).2 rfl
  · rintro ⟨hstored, hnot⟩ spec hspec hlist v hv
    have hvalue := mem_requested.2 hv
    exact (hshown hspec v).2 ⟨hstored spec hspec hlist _ hvalue, fun heq ↦ hnot _ (heq ▸ hvalue)⟩

/-- Lists are asked for texts. -/
theorem exists_str_of_asked {declaration : Declaration} {spec : AttributeSpec} {v : Scalar}
    (regular : declaration.Regular) (valid : Valid declaration desired identity texts)
    (hspec : spec ∈ declaration.attributes) (hlist : spec.isList = true)
    (hv : v ∈ (asked desired spec).getD []) : ∃ text, v = .str text := by
  cases hasked : asked desired spec with
  | none => simp [hasked] at hv
  | some scalars =>
    rw [hasked, Option.getD_some] at hv
    have hasks := asks_of_asked valid regular hspec hasked
    exact (hasks.keeps v hv).exists_str (regular.list_text spec hspec hlist).1

/-! ## Runs -/

/-- What is planned for an object as it was found takes its course. -/
theorem takes_unforced (hschema : schema ∈ ObjectSchema.builtins)
    (hregistry : directory.registry = .builtin)
    (hentries : directory.objects.get? schema.name = some entries) (hdry : desired.dryRun = false)
    (hstate : desired.state = .present ∨ desired.state = .exact)
    (haction : actionFor found = actionOn held)
    (hplan : plan schema.toDeclaration desired found = .ok changes)
    (hcalls : ∀ call ∈ callsOf schema.toDeclaration desired identity held changes,
      Concerns schema.toDeclaration texts allowed call) :
    Takes schema directory entries (callsOf schema.toDeclaration desired identity held changes)
      (fun outcome ↦ outcome.changed =
        !(callsOf schema.toDeclaration desired identity held changes).isEmpty)
      (Exchange.run transport (conclude schema.toDeclaration desired identity found)
        directory) := by
  have hpresent : desired.state ≠ .absent := by rcases hstate with h | h <;> simp [h]
  have hunforced (object : RemoteObject) :
      enableCall schema.toDeclaration identity desired.state object = .ok none := by
    rcases hstate with h | h <;> rw [h] <;> rfl
  have hfirst := takes_issueAll hschema hregistry hentries (fun call hcall ↦
    isSome_ofMethod?_of_concerns (hcalls call (List.mem_append_left _ hcall))) none
  rw [conclude_of_present hpresent, hplan]
  refine .note _ (takes_apply hschema hregistry hdry haction ⟨hfirst.course, fun _ _ ↦ ?_⟩ hcalls)
  rw [hunforced, flagCall_of_unforced hstate]

/-- A run for an object with a canonical principal carries out what is planned for the object
without this alias. -/
theorem run_of_plan (hschema : schema ∈ ObjectSchema.builtins) (kept : directory.Kept allowance)
    (hvalidate : validate schema.toDeclaration desired = .ok identity)
    (valid : Valid schema.toDeclaration desired identity texts)
    (aliased : schema.toDeclaration.Aliased canonical aliases)
    (hallowed : ∀ spec scalars, Asks schema.toDeclaration desired spec scalars →
      spec.isList = true → ∀ v ∈ scalars, allowance.holds schema.name texts spec.name v)
    (hdry : desired.dryRun = false) (hstate : desired.state = .present ∨ desired.state = .exact)
    (hfault : directory.faults.get? schema.toDeclaration.methods.find = none)
    (hplan : plan schema.toDeclaration desired
      (shown schema.toDeclaration identity (directory.focus schema.name texts)) = .ok changes) :
    let ran := Exchange.run transport (run schema.toDeclaration desired) directory
    let held := directory.focus schema.name texts
    let calls := callsOf schema.toDeclaration desired identity held changes
    Planned schema.toDeclaration desired (actionOn held) (held.map withoutCanonical) changes ∧
      ∃ posted after, Course schema.toDeclaration directory.faults (directory.entriesOf schema.name)
          calls posted ran.1.failure? after ∧
        ran.1.posted = schema.toDeclaration.findCall identity :: posted ∧
          ran.2.Like (directory.withEntries schema.name after) ∧
            ∀ outcome, ran.1.result = .ok outcome → outcome.changed = !calls.isEmpty := by
  intro ran held calls
  have hregular := ObjectSchema.regular_of_mem_builtins hschema
  have horderly := orderly_of_kept hschema kept texts
  have hshows : Shows schema.toDeclaration (held.map withoutCanonical)
      (shown schema.toDeclaration identity held) :=
    shows_withoutCanonical hregular aliased horderly.sound
  have hseen := sound_withoutCanonical hregular aliased horderly.sound
  have haction : actionOn (held.map withoutCanonical) = actionOn held := actionOn_map _ _
  have hplanned : Planned schema.toDeclaration desired (actionOn held)
      (held.map withoutCanonical) changes :=
    haction ▸ ((hshows.plan_iff hregular valid hseen).1 hplan).2
  refine ⟨hplanned, run_of_takes hschema kept hvalidate valid hfault fun next hlike ↦ ?_⟩
  refine takes_unforced hschema (hlike.registry.trans kept.registry) hlike.get?_objects hdry hstate
    ?_ hplan (concerns_callsOf hregular valid hallowed hstate hplanned)
  exact (hshows.actionFor_eq hregular hseen).trans haction

end Ensure

namespace Directory

open Exchange Entry Ensure

variable {history : History} {directory : Directory} {desired : DesiredState}

/-- No value that is requested for a list is also stored or requested in another spelling. -/
def SpelledOnce (schema : ObjectSchema) (desired : DesiredState) (attrs? : Option (Dict Json)) :
    Prop :=
  ∀ spec ∈ schema.attributes, spec.isList = true → ∀ text, .str text ∈ requested desired spec →
    ∀ other, .str other ∈ holdings attrs? spec ∨ .str other ∈ requested desired spec →
      Text.sameIgnoringCase other text = true → other = text

section

variable {schema : ObjectSchema} {identity : Identity} {texts : List String}
  {canonical aliases : AttributeSpec} (hschema : schema ∈ ObjectSchema.builtins)
  (aliased : schema.toDeclaration.Aliased canonical aliases)
  (kept : directory.Kept (requests history)) (hfaults : directory.faults = ∅)
  (hdry : desired.dryRun = false) (hstate : desired.state = .present ∨ desired.state = .exact)

include hschema aliased kept hfaults hdry hstate

/-- A run that succeeded carried out what was planned. -/
theorem exists_planned_of_ok
    (hok : (Exchange.run transport (Ensure.run schema.toDeclaration desired)
      directory).1.result.isOk) :
    let ran := Exchange.run transport (Ensure.run schema.toDeclaration desired) directory
    ∃ identity texts changes, validate schema.toDeclaration desired = .ok identity ∧
      target? schema.toDeclaration desired = some texts ∧
      Valid schema.toDeclaration desired identity texts ∧
      Planned schema.toDeclaration desired (actionOn (directory.focus schema.name texts))
        ((directory.focus schema.name texts).map withoutCanonical) changes ∧
      Course schema.toDeclaration ∅ (directory.entriesOf schema.name)
        (callsOf schema.toDeclaration desired identity (directory.focus schema.name texts) changes)
        (callsOf schema.toDeclaration desired identity (directory.focus schema.name texts) changes)
        none (ran.2.entriesOf schema.name) ∧
      ran.2.faults = ∅ ∧
      ran.2.objects.get? schema.name = some (ran.2.entriesOf schema.name) := by
  intro ran
  obtain ⟨identity, texts, htarget, hvalidate, hvalid, hfault⟩ := valid_of_ok hschema kept hok
  obtain ⟨outcome, hok⟩ := isOk_iff.1 hok
  have hallowed := @requested_of_asks history schema desired texts hschema htarget
  have hkept := kept.requested schema desired
  cases hplan : plan schema.toDeclaration desired
      (shown schema.toDeclaration identity (directory.focus schema.name texts)) with
  | error failure =>
    have hpresent : desired.state ≠ .absent := by rcases hstate with h | h <;> simp [h]
    obtain ⟨next, -, hresult, -⟩ := run_of_found hschema kept hvalidate hvalid hfault
    rw [conclude_of_present hpresent, hplan] at hresult
    cases hok.symm.trans hresult
  | ok changes =>
    obtain ⟨hplanned, posted, after, hcourse, -, hlike, -⟩ := run_of_plan hschema hkept hvalidate
      hvalid aliased hallowed hdry hstate hfault hplan
    have hafter : ran.2.objects.get? schema.name = some after := hlike.get?_objects
    unfold Transcript.failure? at hcourse
    rw [hok, hfaults] at hcourse
    obtain rfl := hcourse.posted_eq
    rw [entriesOf_of_get? hafter]
    exact ⟨identity, texts, changes, hvalidate, htarget, hvalid, hplanned, hcourse,
      hlike.faults.trans hfaults, hafter⟩

/-- A run posts nothing after its search exactly if nothing is planned; then it succeeds and leaves
everything as it was. -/
theorem exists_planned_again (hvalidate : validate schema.toDeclaration desired = .ok identity)
    (valid : Valid schema.toDeclaration desired identity texts)
    (hallowed : ∀ spec scalars, Asks schema.toDeclaration desired spec scalars →
      spec.isList = true → ∀ v ∈ scalars, Requested history schema.name texts spec.name v)
    (hwritable : Writable schema.toDeclaration desired
      ((directory.focus schema.name texts).map withoutCanonical))
    (hentries : directory.objects.get? schema.name = some (directory.entriesOf schema.name)) :
    let ran := Exchange.run transport (Ensure.run schema.toDeclaration desired) directory
    let held := directory.focus schema.name texts
    ∃ changes, Planned schema.toDeclaration desired (actionOn held) (held.map withoutCanonical)
        changes ∧
      (ran.1.posted = [schema.toDeclaration.findCall identity] ↔
        callsOf schema.toDeclaration desired identity held changes = []) ∧
      (callsOf schema.toDeclaration desired identity held changes = [] →
        (∃ outcome, ran.1.result = .ok outcome ∧ outcome.changed = false) ∧
          ran.2.objects = directory.objects) := by
  intro ran held
  have hregular := ObjectSchema.regular_of_mem_builtins hschema
  have horderly := orderly_of_kept hschema kept texts
  have hfault : directory.faults.get? schema.toDeclaration.methods.find = none := by
    rw [hfaults, Dict.get?_empty]
  have hshows : Shows schema.toDeclaration (held.map withoutCanonical)
      (shown schema.toDeclaration identity held) :=
    shows_withoutCanonical hregular aliased horderly.sound
  obtain ⟨changes, hplan⟩ := hshows.exists_plan hregular valid
    (sound_withoutCanonical hregular aliased horderly.sound) hwritable
  obtain ⟨hplanned, posted, after, hcourse, hposted, hlike, hchanged⟩ := run_of_plan hschema kept
    hvalidate valid aliased hallowed hdry hstate hfault hplan
  refine ⟨changes, hplanned, ?_, fun hnone ↦ ?_⟩
  · rw [hposted, List.cons_eq_cons, and_iff_right rfl]
    exact hcourse.posted_eq_nil_iff
  · rw [hnone] at hcourse hchanged
    obtain ⟨hfailure, rfl⟩ := hcourse.of_nil
    refine ⟨?_, hlike.objects.trans (Dict.insert_get? directory.objects hentries)⟩
    cases hresult : ran.1.result with
    | ok outcome => exact ⟨outcome, rfl, hchanged outcome hresult⟩
    | error failure =>
      unfold Transcript.failure? at hfailure
      rw [hresult] at hfailure
      simp at hfailure

end

/-- A request for a service that was met asks for nothing more exactly if the service stores every
value that is requested for a list and its canonical principal is not requested among the others.
The values are all stored unless one of them is there in another spelling. -/
theorem ensure_service_again (reached : Reached history directory) (hdry : desired.dryRun = false)
    (hstate : desired.state = .present ∨ desired.state = .exact)
    (hok : (Exchange.run transport (Ensure.run ObjectSchema.service.toDeclaration desired)
      directory.clearFaults).1.result.isOk) :
    let service := ObjectSchema.service
    let first := Exchange.run transport (Ensure.run service.toDeclaration desired)
      directory.clearFaults
    let again := Exchange.run transport (Ensure.run service.toDeclaration desired) first.2
    ∃ identity texts, validate service.toDeclaration desired = .ok identity ∧
      target? service.toDeclaration desired = some texts ∧
      let after := first.2.object? service.name texts
      let search := [service.toDeclaration.findCall identity]
      (again.1.posted = search ↔
        (∀ spec ∈ service.attributes, spec.isList = true →
          ∀ value ∈ requested desired spec, value ∈ holdings after spec) ∧
        ∀ value ∈ requested desired principals, value ∉ holdings after canonicalName) ∧
      (again.1.posted = search →
        (∃ outcome, again.1.result = .ok outcome ∧ outcome.changed = false) ∧
          again.2.objects = first.2.objects) ∧
      (SpelledOnce service desired (directory.object? service.name texts) →
        ∀ spec ∈ service.attributes, spec.isList = true →
          ∀ value ∈ requested desired spec, value ∈ holdings after spec) := by
  intro service first again
  have hschema : service ∈ ObjectSchema.builtins := by simp [service, ObjectSchema.builtins]
  have hregular := ObjectSchema.regular_of_mem_builtins hschema
  have hkept := reached.clearFaults.kept
  obtain ⟨identity, texts, changes, hvalidate, htarget, hvalid, hplanned, hcourse, hfaults,
    hentries⟩ := exists_planned_of_ok hschema aliased_service hkept rfl hdry hstate hok
  have hkept' := hkept.run hschema desired
  have hbefore := (orderly_of_kept hschema hkept texts).involved desired
  have hafter := orderly_of_kept hschema hkept' texts
  have hwritten : ∀ spec ∈ service.attributes,
      spec.appliesTo .add = true ∧ spec.appliesTo .modify = true := by decide +kernel
  have hwritable (held : Option Entry) : Writable service.toDeclaration desired held := by
    intro spec hspec scalars _ hnot
    rcases actionOn_cases held with haction | haction <;>
      simp [haction, hwritten spec hspec] at hnot
  obtain ⟨changes', hplanned', hposted, hquiet⟩ := exists_planned_again hschema aliased_service
    hkept' hfaults hdry hstate hvalidate hvalid (requested_of_asks hschema htarget) (hwritable _)
    hentries
  refine ⟨identity, texts, hvalidate, htarget, ?_, fun h ↦ hquiet (hposted.1 h),
    fun honce spec hspec hlist value hvalue ↦ ?_⟩
  · refine hposted.trans ((callsOf_again_iff hregular aliased_service hvalid rfl hstate hbefore
      hplanned hcourse hplanned').trans ?_)
    exact stock_withoutCanonical_iff hregular aliased_service hafter.sound
  · obtain ⟨v, rfl⟩ := exists_of_mem_requested hvalue
    have hv := mem_requested.1 hvalue
    obtain ⟨text, rfl⟩ := exists_str_of_asked hregular hvalid hspec hlist hv
    refine (toJson_mem_holdings hregular hafter.sound hspec).2 (mem_stock_of_spelledOnce hregular
      aliased_service hvalid hstate hbefore hplanned hcourse hspec hlist hv fun w hw hsame ↦ ?_)
    obtain ⟨other, rfl, hsame⟩ := sameName_str_iff.1 hsame
    refine congrArg Scalar.str (honce spec hspec hlist text hvalue other (hw.imp ?_ ?_) hsame)
    · exact (toJson_mem_holdings hregular hbefore.sound hspec).2
    · exact mem_requested.2

/-- A service that is to have its canonical principal among its aliases. -/
def aliasedService : DesiredState where
  identity := .ofList [("krbcanonicalname", .scalar (.str "HTTP/web"))]
  attributes := .ofList [("krbprincipalname", .list [.str "HTTP/web", .str "HTTP/www"])]
  state := .present
  dryRun := false

/-- The canonical principal is stored among the aliases and yet added again by the next run, which
the service refuses. -/
theorem ensure_service_again_aliasedService :
    let first := Exchange.run transport
      (Ensure.run ObjectSchema.service.toDeclaration aliasedService)
      (ofRegistry .builtin).clearFaults
    let again := Exchange.run transport
      (Ensure.run ObjectSchema.service.toDeclaration aliasedService) first.2
    first.1.result.isOk ∧ ¬again.1.result.isOk ∧
      ∀ identity, validate ObjectSchema.service.toDeclaration aliasedService = .ok identity →
        again.1.posted ≠ [ObjectSchema.service.toDeclaration.findCall identity] := by
  intro first again
  have hok : first.1.result.isOk = true := by decide +kernel
  have hrequested : .str "HTTP/web" ∈ requested aliasedService principals := by decide +kernel
  have hnamed : .str "HTTP/web" ∈ holdings
      (first.2.object? ObjectSchema.service.name ["HTTP/web"]) canonicalName := by
    decide +kernel
  obtain ⟨identity', texts, hvalidate', htarget, hiff, -⟩ :=
    ensure_service_again .empty rfl (.inl rfl) hok
  cases htarget.symm.trans (by decide +kernel :
    target? ObjectSchema.service.toDeclaration aliasedService = some ["HTTP/web"])
  refine ⟨hok, by decide +kernel, fun identity hvalidate hposted ↦ ?_⟩
  obtain rfl := Except.ok.inj (hvalidate.symm.trans hvalidate')
  simp only [again, first] at hposted
  exact (hiff.1 hposted).2 _ hrequested hnamed

end Directory

end DirectoryReconcile
