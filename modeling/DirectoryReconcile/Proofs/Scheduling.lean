import DirectoryReconcile.Proofs.Ensure.Runs
import DirectoryReconcile.Proofs.Ensure.Schedule

/-!
# Runs on schedule

Whatever a service replies, a run posts the search and then calls of one schedule, in its order and
from its start: all of them unless it fails, and none in a dry run. Of all replies after the search,
only the one to the first call has a say in the schedule, and only in whether the flag is set.
-/

namespace DirectoryReconcile

namespace Exchange

variable {α β σ τ : Type} {transport : Transport σ} {state : σ} {dryRun : Bool}
  {calls calls' : List RemoteCall} {good : α → Prop} {good' : β → Prop}

/-- What a run posts of its calls when nothing fails. -/
def sent (dryRun : Bool) (calls : List RemoteCall) : List RemoteCall :=
  if dryRun then [] else calls

theorem sent_append (dryRun : Bool) (calls calls' : List RemoteCall) :
    sent dryRun (calls ++ calls') = sent dryRun calls ++ sent dryRun calls' := by
  cases dryRun <;> rfl

/-- A run that posts calls from the start of these, and all of them if it ends well. Then its result
is good. -/
structure Follows (dryRun : Bool) (calls : List RemoteCall) (good : α → Prop)
    (transcript : Transcript α) : Prop where
  posted_prefix : transcript.posted <+: sent dryRun calls
  completed : ∀ value, transcript.result = .ok value →
    transcript.posted = sent dryRun calls ∧ good value

theorem Follows.mono {good' : α → Prop} {transcript : Transcript α}
    (h : Follows dryRun calls good transcript) (hgood : ∀ value, good value → good' value) :
    Follows dryRun calls good' transcript :=
  ⟨h.posted_prefix, fun value hvalue ↦ (h.completed value hvalue).imp id (hgood value)⟩

theorem Follows.mem_calls {transcript : Transcript α} {call : RemoteCall}
    (h : Follows dryRun calls good transcript) (hcall : call ∈ transcript.posted) : call ∈ calls := by
  have hmem := h.posted_prefix.subset hcall
  cases dryRun with
  | true => cases hmem
  | false => exact hmem

theorem Follows.head?_eq {transcript : Transcript α} {call : RemoteCall}
    (h : Follows dryRun calls good transcript) (hcall : call ∈ transcript.posted.head?) :
    calls.head? = some call := by
  obtain ⟨later, hposted⟩ := List.head?_eq_some_iff.1 hcall
  obtain ⟨rest, hsent⟩ := h.posted_prefix
  rw [hposted] at hsent
  cases dryRun with
  | true => cases hsent
  | false =>
    obtain rfl : call :: later ++ rest = calls := hsent
    rfl

theorem follows_done {value : α} (hvalue : good value) :
    Follows dryRun [] good (run transport (.done value) state).1 := by
  refine ⟨List.nil_prefix, ?_⟩
  rintro _ ⟨⟩
  exact ⟨by cases dryRun <;> rfl, hvalue⟩

theorem follows_fail (calls : List RemoteCall) (failure : Failure) :
    Follows dryRun calls good (run transport (.fail failure : Exchange α) state).1 :=
  ⟨List.nil_prefix, by rintro _ ⟨⟩⟩

theorem Follows.note {exchange : Exchange α} (event : Event)
    (h : Follows dryRun calls good (run transport exchange state).1) :
    Follows dryRun calls good (run transport (.note event exchange) state).1 :=
  ⟨h.posted_prefix, h.completed⟩

/-- One run after another follows the calls of both. -/
theorem Follows.bind {exchange : Exchange α} {f : α → Exchange β}
    (h : Follows dryRun calls good (run transport exchange state).1)
    (hnext : ∀ value, (run transport exchange state).1.result = .ok value → good value →
      Follows dryRun calls' good' (run transport (f value) (run transport exchange state).2).1) :
    Follows dryRun (calls ++ calls') good' (run transport (exchange.bind f) state).1 := by
  rw [run_bind]
  generalize run transport exchange state = ran at h hnext ⊢
  obtain ⟨⟨result, events, posted⟩, next⟩ := ran
  cases result with
  | error failure =>
    refine ⟨h.posted_prefix.trans ?_, by simp⟩
    rw [sent_append]
    exact List.prefix_append _ _
  | ok value =>
    obtain ⟨hposted, hvalue⟩ := h.completed value rfl
    have hrest := hnext value rfl hvalue
    refine ⟨?_, fun result hresult ↦ ?_⟩
    · rw [sent_append, ← hposted]
      exact (List.prefix_append_right_inj _).2 hrest.posted_prefix
    · obtain ⟨hposted', hresult⟩ := hrest.completed result hresult
      refine ⟨?_, hresult⟩
      rw [sent_append, ← hposted, ← hposted']

theorem Follows.bind_nil {exchange : Exchange α} {f : α → Exchange β}
    (h : Follows dryRun calls good (run transport exchange state).1)
    (hnext : ∀ value, (run transport exchange state).1.result = .ok value → good value →
      Follows dryRun [] good' (run transport (f value) (run transport exchange state).2).1) :
    Follows dryRun calls good' (run transport (exchange.bind f) state).1 := by
  have hbind := h.bind hnext
  rwa [List.append_nil] at hbind

end Exchange

namespace Ensure

open Exchange

variable {σ τ : Type} (transport : Transport σ) (declaration : Declaration) (desired : DesiredState)

theorem follows_issue (dryRun : Bool) (call : RemoteCall) (state : σ) :
    Follows dryRun [call] (fun reported ↦ dryRun = true → reported = none)
      (Exchange.run transport (issue declaration dryRun call) state).1 := by
  cases dryRun with
  | true => exact Follows.note _ ⟨List.prefix_refl _, by rintro _ ⟨⟩; exact ⟨rfl, fun _ ↦ rfl⟩⟩
  | false =>
    have hposted : (Exchange.run transport (declaration.invoke call) state).1.posted = [call] := by
      rw [Declaration.invoke, run_exchange]
    have hinvoke : Follows false [call] (fun _ ↦ True)
        (Exchange.run transport (declaration.invoke call) state).1 :=
      ⟨hposted ▸ List.prefix_refl _, fun _ _ ↦ ⟨hposted, trivial⟩⟩
    exact Follows.note _ (hinvoke.bind fun object _ _ ↦ follows_done (by simp))

theorem follows_issueAll (dryRun : Bool) (last : Option RemoteObject) (calls : List RemoteCall)
    (state : σ) :
    Follows dryRun calls (fun reported ↦ dryRun = true ∨ calls = [] → reported = last)
      (Exchange.run transport (issueAll declaration dryRun last calls) state).1 := by
  induction calls generalizing last state with
  | nil => exact follows_done fun _ ↦ rfl
  | cons call rest ih =>
    refine (follows_issue transport declaration dryRun call state).bind fun reported _ hreported ↦ ?_
    refine (ih (reported.or last) _).mono fun value hvalue hdry ↦ ?_
    have hdry := hdry.resolve_right (List.cons_ne_nil _ _)
    rw [hvalue (.inl hdry), hreported hdry, Option.none_or]

/-! ## What follows the search -/

/-- The calls for the changes of a found object are posted in order. The flag may depend on the
reply to the first of them, and on nothing else. -/
theorem follows_apply (identity : Identity) (found : RemoteObject) (changes : ChangeSet)
    (state : σ) : ∃ flag, (flag = none ∨ flag = forcedCall declaration identity desired.state) ∧
      let schedule := changeSchedule declaration identity found changes flag
      Follows desired.dryRun schedule.calls
        (fun outcome ↦ outcome.calls = schedule.calls ∧ outcome.changed = !outcome.calls.isEmpty ∧
          (desired.dryRun = true ∨ schedule.primary = none →
            enableCall declaration identity desired.state found = .ok flag))
        (Exchange.run transport (apply declaration desired identity found changes) state).1 := by
  simp only [changeSchedule, Schedule.calls, Schedule.primary, List.append_assoc]
  have hfirst := follows_issueAll transport declaration desired.dryRun none
    (primaryCall declaration identity (actionFor found) changes).toList state
  cases hresult : (Exchange.run transport (issueAll declaration desired.dryRun none
      (primaryCall declaration identity (actionFor found) changes).toList) state).1.result with
  | error failure =>
    refine ⟨none, .inl rfl, hfirst.bind fun created hcreated ↦ ?_⟩
    simp [hresult] at hcreated
  | ok created =>
    cases hflag : enableCall declaration identity desired.state (created.getD found) with
    | error failure =>
      refine ⟨none, .inl rfl, hfirst.bind fun other hother _ ↦ ?_⟩
      cases hresult.symm.trans hother
      simp only [hflag]
      exact follows_fail _ _
    | ok flag =>
      refine ⟨flag, enableCall_eq_ok hflag, hfirst.bind fun other hother hcreated ↦ ?_⟩
      cases hresult.symm.trans hother
      simp only [hflag]
      refine (follows_issueAll transport declaration desired.dryRun none flag.toList _).bind
        fun flagged _ _ ↦ ?_
      refine (follows_issueAll transport declaration desired.dryRun none _ _).bind_nil
        fun listed _ _ ↦ Follows.note _ (follows_done ⟨?_, rfl, fun hsame ↦ ?_⟩)
      · exact List.append_assoc _ _ _
      · have hnone : created = none := hcreated (hsame.imp id fun h ↦ by rw [h, Option.toList_none])
        rwa [hnone] at hflag

/-- What follows the search has one schedule, unless the request cannot be met: then nothing is
posted. -/
theorem follows_conclude (identity : Identity) (found : RemoteObject) (state : σ) :
    let transcript := (Exchange.run transport (conclude declaration desired identity found) state).1
    (transcript.posted = [] ∧ ∃ failure, transcript.result = .error failure) ∨
      ∃ flag schedule, (flag = none ∨ flag = forcedCall declaration identity desired.state) ∧
        scheduleOf declaration desired identity found flag = .ok schedule ∧
        Follows desired.dryRun schedule.calls
          (fun outcome ↦ outcome.calls = schedule.calls ∧
            outcome.changed = !outcome.calls.isEmpty ∧
            (desired.dryRun = true ∨ schedule.primary = none →
              enableCall declaration identity desired.state found = .ok flag)) transcript := by
  intro transcript
  have hunforced (hstate : desired.state = .absent) :
      enableCall declaration identity desired.state found = .ok none := by
    rw [hstate]
    rfl
  by_cases hgone : desired.state = .absent && found.isEmpty
  · refine .inr ⟨none, .changes none none [] [], .inl rfl, if_pos hgone, ?_⟩
    simp only [transcript, conclude, if_pos hgone]
    rw [Bool.and_eq_true, decide_eq_true_eq] at hgone
    exact Follows.note _ (follows_done ⟨rfl, rfl, fun _ ↦ hunforced hgone.1⟩)
  by_cases hwhole : desired.state = .absent && !desired.hasLists declaration
  · refine .inr ⟨none, .removal (removeCall declaration identity), .inl rfl,
      (if_neg hgone).trans (if_pos hwhole), ?_⟩
    simp only [transcript, conclude, if_neg hgone, if_pos hwhole]
    rw [Bool.and_eq_true, decide_eq_true_eq] at hwhole
    exact (follows_issue transport declaration _ _ state).bind_nil fun _ _ _ ↦
      Follows.note _ (follows_done ⟨rfl, rfl, fun _ ↦ hunforced hwhole.1⟩)
  simp only [transcript, conclude, if_neg hgone, if_neg hwhole]
  cases hplan : plan declaration desired found with
  | error failure => exact .inl ⟨rfl, failure, rfl⟩
  | ok changes =>
    obtain ⟨flag, hflag, hfollows⟩ :=
      follows_apply transport declaration desired identity found changes state
    refine .inr ⟨flag, _, hflag, ?_, Follows.note _ hfollows⟩
    unfold scheduleOf
    rw [if_neg hgone, if_neg hwhole, hplan]
    rfl

/-- A run is over after a search that fails, and goes on with the object that is found otherwise. -/
theorem run_after_search {identity : Identity}
    (hvalidate : validate declaration desired = .ok identity) (state : σ) :
    let search := Exchange.run transport (declaration.find identity) state
    let transcript := (Exchange.run transport (run declaration desired) state).1
    (∃ failure, search.1.result = .error failure ∧
        transcript.posted = [declaration.findCall identity] ∧ transcript.result = .error failure) ∨
      ∃ found, search.1.result = .ok found ∧
        let rest := (Exchange.run transport (conclude declaration desired identity found) search.2).1
        transcript.posted = declaration.findCall identity :: rest.posted ∧
          transcript.result = rest.result := by
  simp only [run_eq hvalidate, Exchange.run, run_bind, Declaration.find, run_exchange]
  generalize answer declaration (declaration.findCall identity) _ _ _ = result
  cases result with
  | error failure => exact .inl ⟨failure, rfl, rfl, rfl⟩
  | ok found => exact .inr ⟨found, rfl, rfl, rfl⟩

/-! ## Whole runs -/

/-- A run posts nothing if its request is refused, and only the search if that fails. Otherwise the
calls after the search are those of a schedule that fits the request and the object found, in its
order: all of them in a run that ends well, the first ones in one that fails, and none in a dry run,
which reports them instead. Each of them starts with the identity. -/
theorem ensure_keeps_schedule (schema : ObjectSchema) (state : σ) :
    let transcript := (Exchange.run transport (run schema.toDeclaration desired) state).1
    match validate schema.toDeclaration desired with
    | .error failure => transcript.posted = [] ∧ transcript.result = .error failure
    | .ok identity => ∃ rest, transcript.posted = schema.findCall identity :: rest ∧
      match (Exchange.run transport (schema.find identity) state).1.result with
      | .error failure => rest = [] ∧ transcript.result = .error failure
      | .ok found => ∃ schedule : Schedule, schedule.Fits schema.toDeclaration desired found ∧
          (∀ call ∈ schedule.calls, Leads schema.toDeclaration desired call) ∧
          rest <+: sent desired.dryRun schedule.calls ∧
          ∀ outcome, transcript.result = .ok outcome →
            outcome.calls = schedule.calls ∧ rest = sent desired.dryRun schedule.calls := by
  intro transcript
  cases hvalidate : validate schema.toDeclaration desired with
  | error failure =>
    simp only [transcript, run, hvalidate]
    exact ⟨rfl, rfl⟩
  | ok identity =>
    rcases run_after_search transport schema.toDeclaration desired hvalidate state with
      ⟨failure, hfound, hposted, hresult⟩ | ⟨found, hfound, hposted, hresult⟩
    · refine ⟨[], hposted, ?_⟩
      rw [hfound]
      exact ⟨rfl, hresult⟩
    · refine ⟨_, hposted, ?_⟩
      rw [hfound]
      rcases follows_conclude transport schema.toDeclaration desired identity found _ with
        ⟨hnone, failure, hfailure⟩ | ⟨flag, schedule, hflag, hschedule, hfollows⟩
      · refine ⟨_, Schedule.fits_nothing _ _ _, by simp [Schedule.calls], ?_,
          fun outcome houtcome ↦ ?_⟩
        · rw [hnone]
          exact List.nil_prefix
        · cases (hresult.symm.trans houtcome).symm.trans hfailure
      · refine ⟨schedule, fits_of_scheduleOf hflag hschedule, fun call hcall ↦
          leads_of_prefix schema hvalidate (prefix_of_mem_schedule hflag hschedule hcall),
          hfollows.posted_prefix, fun outcome houtcome ↦ ?_⟩
        obtain ⟨hall, hcalls, -⟩ := hfollows.completed outcome (hresult.symm.trans houtcome)
        exact ⟨hcalls, hall⟩

/-! ## Dry runs -/

theorem posted_of_dryRun {identity : Identity} (hdry : desired.dryRun = true)
    (hvalidate : validate declaration desired = .ok identity) (state : σ) :
    (Exchange.run transport (run declaration desired) state).1.posted =
      [declaration.findCall identity] := by
  rcases run_after_search transport declaration desired hvalidate state with
    ⟨-, -, hposted, -⟩ | ⟨found, -, hposted, -⟩
  · exact hposted
  rw [hposted]
  rcases follows_conclude transport declaration desired identity found _ with
    ⟨hnone, -⟩ | ⟨flag, schedule, -, -, hfollows⟩
  · rw [hnone]
  · have hprefix := hfollows.posted_prefix
    rw [hdry] at hprefix
    rw [List.prefix_nil.1 hprefix]

/-- A run that ended well found an object and has a schedule for it. -/
theorem exists_schedule_of_ok {identity : Identity} {outcome : Outcome}
    (hvalidate : validate declaration desired = .ok identity) {state : σ}
    (hresult : (Exchange.run transport (run declaration desired) state).1.result = .ok outcome) :
    ∃ found flag schedule,
      (Exchange.run transport (declaration.find identity) state).1.result = .ok found ∧
      (flag = none ∨ flag = forcedCall declaration identity desired.state) ∧
      scheduleOf declaration desired identity found flag = .ok schedule ∧
      (Exchange.run transport (run declaration desired) state).1.posted =
        declaration.findCall identity :: sent desired.dryRun schedule.calls ∧
      outcome.calls = schedule.calls ∧ outcome.changed = !schedule.calls.isEmpty ∧
      (desired.dryRun = true ∨ schedule.primary = none →
        enableCall declaration identity desired.state found = .ok flag) := by
  rcases run_after_search transport declaration desired hvalidate state with
    ⟨failure, -, -, hfailure⟩ | ⟨found, hfound, hposted, hrest⟩
  · cases hfailure.symm.trans hresult
  have houtcome := hrest.symm.trans hresult
  rcases follows_conclude transport declaration desired identity found _ with
    ⟨-, failure, hfailure⟩ | ⟨flag, schedule, hflag, hschedule, hfollows⟩
  · cases hfailure.symm.trans houtcome
  · obtain ⟨hall, hcalls, hchanged, hsame⟩ := hfollows.completed outcome houtcome
    rw [hcalls] at hchanged
    exact ⟨found, flag, schedule, hfound, hflag, hschedule, by rw [hposted, hall], hcalls, hchanged,
      hsame⟩

/-- A dry run posts the search alone. If a real run of the same request, against any service, has the
same reply to its search, and both end well, the dry run reports a change exactly when the real one
makes one, and the calls that the real one posts, except that a call that sets the flag may be
needed in one of them only, after a call that creates or modifies the object. -/
theorem ensure_dryRun (schema : ObjectSchema) (transport : Transport σ) (other : Transport τ)
    (state : σ) (state' : τ) {identity : Identity}
    (hvalidate : validate schema.toDeclaration desired = .ok identity) :
    let search := schema.findCall identity
    let dry := (Exchange.run transport
      (run schema.toDeclaration { desired with dryRun := true }) state).1
    let real := (Exchange.run other
      (run schema.toDeclaration { desired with dryRun := false }) state').1
    dry.posted = [search] ∧
      ((transport state search.method search.params).1 =
          (other state' search.method search.params).1 →
        ∀ planned outcome, dry.result = .ok planned → real.result = .ok outcome →
          planned.changed = outcome.changed ∧ real.posted = search :: outcome.calls ∧
            ∃ found, ∃ schedule schedule' : Schedule, planned.calls = schedule.calls ∧
              outcome.calls = schedule'.calls ∧ schedule.Agrees schedule' ∧
              schedule.Fits schema.toDeclaration desired found ∧
              schedule'.Fits schema.toDeclaration desired found) := by
  intro search dry real
  refine ⟨posted_of_dryRun transport schema.toDeclaration { desired with dryRun := true } rfl
    hvalidate state, fun hreply planned outcome hplanned houtcome ↦ ?_⟩
  obtain ⟨found, flag, schedule, hfound, hflag, hschedule, -, hcalls, hchanged, hsame⟩ :=
    exists_schedule_of_ok transport schema.toDeclaration { desired with dryRun := true } hvalidate
      hplanned
  obtain ⟨found', flag', schedule', hfound', hflag', hschedule', hposted, hcalls', hchanged',
      hsame'⟩ :=
    exists_schedule_of_ok other schema.toDeclaration { desired with dryRun := false } hvalidate
      houtcome
  rw [Declaration.find, run_exchange] at hfound hfound'
  rw [hreply] at hfound
  cases hfound.symm.trans hfound'
  have hagrees : schedule.Agrees schedule' :=
    agrees_of_scheduleOf hflag hflag' hschedule hschedule' fun _ hfirst ↦
      Except.ok.inj ((hsame (.inl rfl)).symm.trans (hsame' (.inr hfirst)))
  refine ⟨?_, ?_, found, schedule, schedule', hcalls, hcalls', hagrees,
    fits_of_scheduleOf hflag hschedule, fits_of_scheduleOf hflag' hschedule'⟩
  · rw [hchanged, hchanged', hagrees.isEmpty_calls]
  · rw [hposted, hcalls']
    rfl

/-- A user that is to be locked. -/
def lockedUser : DesiredState where
  identity := .ofList [("uid", .scalar (.str "alice"))]
  attributes := .ofList [("sn", .scalar (.str "Ashe")), ("krbprincipalname", .list [.str "a.ashe"])]
  state := .disabled
  dryRun := false

/-- The body of a reply that reports a user who is locked already. -/
def lockedBody : Json :=
  .obj [("result", .obj [("uid", .arr [.str "alice"]), ("nsaccountlock", .bool true)])]

/-- The user is created locked, so the call that would lock it is planned and not posted. -/
theorem ensure_dryRun_lockedUser :
    let dry := (Exchange.run Transport.scripted
      (run ObjectSchema.user.toDeclaration { lockedUser with dryRun := true }) []).1
    let real := (Exchange.run Transport.scripted
      (run ObjectSchema.user.toDeclaration { lockedUser with dryRun := false })
      [.ok (.obj []), .ok lockedBody]).1
    ∃ planned outcome, dry.result = .ok planned ∧ real.result = .ok outcome ∧
      planned.changed = outcome.changed ∧
      dry.posted.map (·.method) = ["user_find"] ∧
      real.posted.map (·.method) = ["user_find", "user_add", "user_add_principal"] ∧
      planned.calls ≠ outcome.calls ∧ ∃ schedule schedule' : Schedule,
        planned.calls = schedule.calls ∧ outcome.calls = schedule'.calls ∧
          schedule.Agrees schedule' := by
  intro dry real
  obtain ⟨identity, hvalidate⟩ := isOk_iff.1
    (by decide +kernel : (validate ObjectSchema.user.toDeclaration lockedUser).isOk = true)
  obtain ⟨planned, hplanned⟩ := isOk_iff.1 (by decide +kernel : dry.result.isOk = true)
  obtain ⟨outcome, houtcome⟩ := isOk_iff.1 (by decide +kernel : real.result.isOk = true)
  obtain ⟨hposted, hagree⟩ := ensure_dryRun lockedUser ObjectSchema.user Transport.scripted
    Transport.scripted [] [.ok (.obj []), .ok lockedBody] hvalidate
  obtain ⟨hchanged, hreal, found, schedule, schedule', hcalls, hcalls', hagrees, -⟩ :=
    hagree rfl planned outcome hplanned houtcome
  have hdiffer : dry.result.toOption.map (·.calls) ≠ real.result.toOption.map (·.calls) := by
    decide +kernel
  rw [hplanned, houtcome] at hdiffer
  exact ⟨planned, outcome, hplanned, houtcome, hchanged, by decide +kernel, by decide +kernel,
    fun h ↦ hdiffer (congrArg some h), schedule, schedule', hcalls, hcalls', hagrees⟩

end Ensure

end DirectoryReconcile
