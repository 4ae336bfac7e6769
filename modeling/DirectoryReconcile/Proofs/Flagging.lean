import DirectoryReconcile.Proofs.Ensure.Flag

/-!
# Runs that force the flag

A run judges the flag after its first call, by the object that the reply to this call reports. What
it does not say of the flag, or says in a way that cannot be read, decides how the run goes on.
-/

namespace DirectoryReconcile

namespace Ensure

open Exchange Declaration

variable {σ : Type} {transport : Transport σ} {desired : DesiredState} {identity : Identity}
  {found : RemoteObject} {changes : ChangeSet} {state : σ}

/-! ## The call that sets the flag -/

section

variable {enabled : Bool} {outcome : Outcome}

theorem apply_of_opposite (schema : ObjectSchema)
    (hforced : desired.state.forcedEnable = some enabled) (hreal : desired.dryRun = false)
    (hopposite : schema.Carries found !enabled)
    (hresult : (Exchange.run transport (apply schema.toDeclaration desired identity found changes)
      state).1.result = .ok outcome) :
    let posted := (Exchange.run transport
      (apply schema.toDeclaration desired identity found changes) state).1.posted
    .plain (if enabled then schema.methods.enable else schema.methods.disable)
        (schema.positional identity) ∈ posted ∨
      ∃ call rest body, posted = call :: rest ∧ call.method = schema.methods.modify ∧
        (transport state call.method call.params).1 = .ok body ∧
        let reported := Response.object schema.toDeclaration (fun _ ↦ true)
          (schema.identityOfCall call) body
        schema.Carries reported enabled ∨ enabled = true ∧ schema.LacksFlag reported := by
  intro posted
  have hexists := hopposite.isEmpty_eq_false
  have hother := schema.isEnabled_eq_ok_iff.2 (.inl hopposite)
  obtain ⟨flag, henable, -⟩ := hopposite
  rcases apply_cases transport schema.toDeclaration desired identity found changes state with
    ⟨error, herror⟩ | ⟨baseline, hbaseline⟩
  · cases hresult.symm.trans herror
  have happly := hbaseline.run_apply
  generalize hfirst : primaryCall schema.toDeclaration identity (actionFor found) changes = first
    at hbaseline happly
  rw [enableCall_of_forced (forcedFlag_eq_some_iff.2 ⟨hforced, henable⟩)] at happly
  cases hstored : schema.isEnabled baseline with
  | error failure =>
    simp only [hstored, Except.map] at happly
    cases hresult.symm.trans happly.2
  | ok stored =>
    simp only [hstored, Except.map, hreal, sent, Bool.false_eq_true, if_false] at happly
    have hposted := happly.1 outcome hresult
    by_cases hset : stored = enabled
    · -- The call is left out, so the object found is not the one that the flag was judged by.
      subst hset
      have hreported := schema.isEnabled_eq_ok_iff.1 hstored
      cases hbaseline with
      | found => cases stored <;> cases hstored.symm.trans hother
      | @reported call body _ hreply _ =>
        refine .inr ⟨call, _, body, hposted, ?_, hreply, hreported⟩
        rw [(primaryCall_eq_some hfirst).1, actionFor, hexists]
        rfl
    · refine .inl ?_
      simp only [posted, hposted, if_neg hset]
      simp

/-- A run that ends well on an object with the other flag posts the call that sets it, unless the
reply to the call that changes the object reports one with the requested flag already, or one
without a flag when the object is to be enabled. -/
theorem ensure_sets_flag (schema : ObjectSchema)
    (hvalidate : validate schema.toDeclaration desired = .ok identity)
    (hforced : desired.state.forcedEnable = some enabled) (hreal : desired.dryRun = false)
    (hfound : (Exchange.run transport (schema.find identity) state).1.result = .ok found)
    (hopposite : schema.Carries found !enabled)
    (hresult : (Exchange.run transport (run schema.toDeclaration desired) state).1.result =
      .ok outcome) :
    let posted := (Exchange.run transport (run schema.toDeclaration desired) state).1.posted
    .plain (if enabled then schema.methods.enable else schema.methods.disable)
        (schema.positional identity) ∈ posted ∨
      ∃ call rest body, posted = schema.findCall identity :: call :: rest ∧
        call.method = schema.methods.modify ∧
        (transport (transport.after [schema.findCall identity] state) call.method
          call.params).1 = .ok body ∧
        let reported := Response.object schema.toDeclaration (fun _ ↦ true)
          (schema.identityOfCall call) body
        schema.Carries reported enabled ∨ enabled = true ∧ schema.LacksFlag reported := by
  intro posted
  have hstate := TargetState.ne_absent_of_forcedEnable hforced
  rcases run_after_search transport schema.toDeclaration desired hvalidate state with
    ⟨failure, -, -, hfailure⟩ | ⟨other, hother, hposted, hrest⟩
  · cases hfailure.symm.trans hresult
  cases hother.symm.trans hfound
  rw [hresult, state_after_search, conclude_of_present hstate] at hrest
  rw [state_after_search, conclude_of_present hstate] at hposted
  cases hplan : plan schema.toDeclaration desired found with
  | error failure =>
    rw [hplan] at hrest
    cases hrest
  | ok changes =>
    rw [hplan] at hrest hposted
    rcases apply_of_opposite schema hforced hreal hopposite hrest.symm with
      hmem | ⟨call, rest, body, hcalls, hreported⟩
    · refine .inl ?_
      simp only [posted, hposted]
      exact List.mem_cons_of_mem _ hmem
    · exact .inr ⟨call, rest, body, hposted.trans (congrArg _ hcalls), hreported⟩

end

/-- A zone that is to be active again, with another refresh time. -/
def activeZone : DesiredState where
  identity := .ofList [("idnsname", .scalar (.str "example.org"))]
  attributes := .ofList [("idnssoarefresh", .scalar (.int 3600))]
  state := .enabled
  dryRun := false

/-- The body of a reply that reports the zone with one more field. -/
def zoneBody (key : String) (value : Json) : Json :=
  .obj [("result", .obj [("idnsname", .arr [.str "example.org"]), (key, value)])]

/-- The zone as its reply reports it, inactive. -/
def inactiveZone : RemoteObject :=
  .ofList [("idnsname", .str "example.org"), ("idnszoneactive", .bool false)]

theorem object_of_unhooked {declaration : Declaration} (hhook : declaration.responseHook = none)
    {body : Json} {fields : List (String × Json)} (hresult : Response.result body = .obj fields)
    (keep : Json → Bool) (identity : Identity) :
    Response.object declaration keep identity body =
      Response.fit declaration (Json.obj fields).fields := by
  simp only [Response.object, Response.present, hhook, hresult, Response.select]

/-- A reply that repeats the flag of the zone has the call that activates it posted. -/
theorem ensure_sets_flag_activeZone :
    let replies : List (Except String Json) := [.ok (zoneBody "idnszoneactive" (.bool false)),
      .ok (zoneBody "idnszoneactive" (.bool false))]
    let posted := (Exchange.run Transport.scripted
      (run ObjectSchema.dnszone.toDeclaration activeZone) replies).1.posted
    (∃ outcome, (Exchange.run Transport.scripted
        (run ObjectSchema.dnszone.toDeclaration activeZone) replies).1.result = .ok outcome) ∧
      ObjectSchema.dnszone.Carries inactiveZone false ∧
      RemoteCall.plain "dnszone_enable" [.str "example.org"] ∈ posted := by
  intro replies posted
  obtain ⟨outcome, houtcome⟩ := isOk_iff.1 (by decide +kernel : (Exchange.run Transport.scripted
    (run ObjectSchema.dnszone.toDeclaration activeZone) replies).1.result.isOk = true)
  have hcarries : ObjectSchema.dnszone.Carries inactiveZone false :=
    ⟨⟨"idnszoneactive", false⟩, rfl, by decide +kernel⟩
  refine ⟨⟨outcome, houtcome⟩, hcarries, ?_⟩
  have hvalidate : validate ObjectSchema.dnszone.toDeclaration activeZone =
      .ok activeZone.identity := by decide +kernel
  have hset := ensure_sets_flag ObjectSchema.dnszone hvalidate rfl rfl (by decide +kernel) hcarries
    houtcome
  refine hset.resolve_right ?_
  rintro ⟨call, rest, body, -, -, hreply, hreported⟩
  obtain rfl : zoneBody "idnszoneactive" (.bool false) = body := Except.ok.inj hreply
  have hread (keep : Json → Bool) (identity : Identity) : ObjectSchema.dnszone.flagOf?
      (Response.object ObjectSchema.dnszone.toDeclaration keep identity
        (zoneBody "idnszoneactive" (.bool false))) = some (.ok (.scalar (.bool false))) := by
    rw [object_of_unhooked rfl rfl]
    decide +kernel
  rcases hreported with ⟨flag, henable, hflag⟩ | ⟨-, hlacks⟩
  · obtain rfl : flag = ⟨"idnszoneactive", false⟩ := (Option.some.inj henable).symm
    rw [hread] at hflag
    revert hflag
    decide
  · simp [LacksFlag, hread] at hlacks

/-- The zone is found inactive and changed. The reply to the change says nothing of the flag, so the
call that activates the zone is never posted, though no reply reports an active zone. -/
theorem ensure_leaves_zone_inactive :
    let replies : List (Except String Json) := [.ok (zoneBody "idnszoneactive" (.bool false)),
      .ok (zoneBody "idnssoarefresh" (.int 3600))]
    let transcript := (Exchange.run Transport.scripted
      (run ObjectSchema.dnszone.toDeclaration activeZone) replies).1
    (∃ outcome, transcript.result = .ok outcome) ∧
      (Exchange.run Transport.scripted (ObjectSchema.dnszone.find activeZone.identity)
        replies).1.result = .ok inactiveZone ∧
      ObjectSchema.dnszone.Carries inactiveZone false ∧
      transcript.posted.map (·.method) = ["dnszone_find", "dnszone_mod"] ∧
      ∀ body, (.ok body : Reply) ∈ Transport.scripted.replies transcript.posted replies →
        ∀ keep identity, ¬ObjectSchema.dnszone.Carries
          (Response.object ObjectSchema.dnszone.toDeclaration keep identity body) true := by
  intro replies transcript
  refine ⟨isOk_iff.1 (by decide +kernel), by decide +kernel, ⟨⟨"idnszoneactive", false⟩, rfl,
    by decide +kernel⟩, by decide +kernel, fun body hbody keep identity ↦ ?_⟩
  have hreplies : Transport.scripted.replies transcript.posted replies =
      [.ok (zoneBody "idnszoneactive" (.bool false)),
        .ok (zoneBody "idnssoarefresh" (.int 3600))] := by decide +kernel
  rw [hreplies] at hbody
  simp only [List.mem_cons, Except.ok.injEq, List.not_mem_nil, or_false] at hbody
  rintro ⟨flag, henable, hflag⟩
  obtain rfl : flag = ⟨"idnszoneactive", false⟩ := (Option.some.inj henable).symm
  rcases hbody with rfl | rfl
  · rw [object_of_unhooked rfl rfl] at hflag
    revert hflag
    decide +kernel
  · rw [object_of_unhooked rfl rfl] at hflag
    revert hflag
    decide +kernel

/-! ## Failures of validation -/

/-- A run that forces the flag posts a call whose reply reports an object with a flag that cannot be
read. -/
structure Garbled (transport : Transport σ) (declaration : Declaration) (desired : DesiredState)
    (state : σ) (call : RemoteCall) (failure : Failure) : Prop where
  forced : desired.state.forcedEnable.isSome
  real : desired.dryRun = false
  unread : ∃ body, (transport state call.method call.params).1 = .ok body ∧
    Response.fault? call.method body = none ∧
      declaration.flagOf? (Response.object declaration (fun _ ↦ true)
        (declaration.identityOfCall call) body) = some (.error failure)

variable {attr : String} {objection : Objection}

theorem apply_of_validation (schema : ObjectSchema)
    (hresult : (Exchange.run transport (apply schema.toDeclaration desired identity found changes)
      state).1.result = .error (.validation attr objection)) :
    let posted := (Exchange.run transport
      (apply schema.toDeclaration desired identity found changes) state).1.posted
    posted = [] ∨ ∃ call,
      primaryCall schema.toDeclaration identity (actionFor found) changes = some call ∧
        posted = [call] ∧
        Garbled transport schema.toDeclaration desired state call (.validation attr objection) := by
  intro posted
  rcases apply_cases transport schema.toDeclaration desired identity found changes state with
    ⟨error, herror⟩ | ⟨baseline, hbaseline⟩
  · cases hresult.symm.trans herror
  have happly := hbaseline.run_apply
  generalize hfirst : primaryCall schema.toDeclaration identity (actionFor found) changes = first
    at hbaseline happly
  cases hflag : enableCall schema.toDeclaration identity desired.state baseline with
  | ok flag =>
    rw [hflag] at happly
    obtain ⟨error, herror⟩ := happly.2 _ hresult
    cases herror
  | error failure =>
    rw [hflag] at happly
    obtain ⟨hposted, hfailure⟩ := happly
    cases hresult.symm.trans hfailure
    obtain ⟨hforced, hunread⟩ := forced_of_enableCall_error hflag
    cases hbaseline with
    | found hnone =>
      refine .inl (hposted.trans ?_)
      rcases hnone with hdry | rfl
      · rw [hdry]
        rfl
      · cases desired.dryRun <;> rfl
    | @reported call body hreal hreply hhealthy =>
      refine .inr ⟨call, rfl, hposted.trans ?_, hforced, hreal, body, hreply, hhealthy,
        schema.isEnabled_eq_error_iff.1 hunread⟩
      rw [hreal]
      rfl

theorem conclude_of_validation (schema : ObjectSchema)
    (hresult : (Exchange.run transport (conclude schema.toDeclaration desired identity found)
      state).1.result = .error (.validation attr objection)) :
    let posted := (Exchange.run transport (conclude schema.toDeclaration desired identity found)
      state).1.posted
    posted = [] ∨ ∃ changes call, plan schema.toDeclaration desired found = .ok changes ∧
      primaryCall schema.toDeclaration identity (actionFor found) changes = some call ∧
        posted = [call] ∧
        Garbled transport schema.toDeclaration desired state call (.validation attr objection) := by
  intro posted
  simp only [posted]
  unfold conclude at hresult ⊢
  split at hresult
  · cases hresult
  next hgone =>
  rw [if_neg hgone]
  split at hresult
  · have hissue := failsRemotely_issue schema.toDeclaration desired.dryRun
      (removeCall schema.toDeclaration identity)
    obtain ⟨error, herror⟩ := (hissue.bind fun _ ↦ by exact trivial).of_error hresult
    cases herror
  next hwhole =>
  rw [if_neg hwhole]
  cases hplan : plan schema.toDeclaration desired found with
  | error failure => exact .inl rfl
  | ok changes =>
    rw [hplan] at hresult
    exact (apply_of_validation schema hresult).imp id fun ⟨call, hcall, hposted, hgarbled⟩ ↦
      ⟨changes, call, rfl, hcall, hposted, hgarbled⟩

/-- A run that fails in a validation has posted nothing but the search, unless it has posted the
call that creates or changes the object and the reply reports one with a flag that cannot be read,
which is what the failure is about. -/
theorem ensure_validates_first (schema : ObjectSchema)
    (hresult : (Exchange.run transport (run schema.toDeclaration desired) state).1.result =
      .error (.validation attr objection)) :
    let posted := (Exchange.run transport (run schema.toDeclaration desired) state).1.posted
    posted = [] ∨ ∃ identity, validate schema.toDeclaration desired = .ok identity ∧
      let searched := transport.after [schema.findCall identity] state
      (posted = [schema.findCall identity] ∨ ∃ found changes call,
        (Exchange.run transport (schema.find identity) state).1.result = .ok found ∧
          plan schema.toDeclaration desired found = .ok changes ∧
          primaryCall schema.toDeclaration identity (actionFor found) changes = some call ∧
          posted = [schema.findCall identity, call] ∧
          Garbled transport schema.toDeclaration desired searched call
            (.validation attr objection)) := by
  intro posted
  cases hvalidate : validate schema.toDeclaration desired with
  | error failure =>
    refine .inl ?_
    simp only [posted, run, hvalidate]
    rfl
  | ok identity =>
    refine .inr ⟨identity, rfl, ?_⟩
    rcases run_after_search transport schema.toDeclaration desired hvalidate state with
      ⟨failure, -, hposted, -⟩ | ⟨found, hfound, hposted, hrest⟩
    · exact .inl hposted
    rw [state_after_search] at hposted hrest
    rcases conclude_of_validation schema (hrest.symm.trans hresult) with
      hnone | ⟨changes, call, hplan, hcall, hlast, hgarbled⟩
    · exact .inl (hposted.trans (congrArg _ hnone))
    · exact .inr ⟨found, changes, call, hfound, hplan, hcall, hposted.trans (congrArg _ hlast),
        hgarbled⟩

/-- The body of a reply that says neither that a user is locked nor that it is not. -/
def undecidedBody : Json :=
  .obj [("result", .obj [("uid", .arr [.str "alice"]), ("nsaccountlock", .str "maybe")])]

/-- The user is created before the run fails in a validation. -/
theorem ensure_validates_first_lockedUser :
    let transcript := (Exchange.run Transport.scripted
      (run ObjectSchema.user.toDeclaration lockedUser) [.ok (.obj []), .ok undecidedBody]).1
    let failure : Failure := .validation "nsaccountlock" (.value (.notFlag "'maybe'"))
    transcript.result = .error failure ∧
      transcript.posted.map (·.method) = ["user_find", "user_add"] ∧
      ∃ identity call, Garbled Transport.scripted ObjectSchema.user.toDeclaration lockedUser
        (Transport.scripted.after [ObjectSchema.user.findCall identity]
          [.ok (.obj []), .ok undecidedBody]) call failure := by
  intro transcript failure
  have hfailure : transcript.result = .error failure := by decide +kernel
  have hmethods : transcript.posted.map (·.method) = ["user_find", "user_add"] := by decide +kernel
  refine ⟨hfailure, hmethods, ?_⟩
  rcases ensure_validates_first ObjectSchema.user hfailure with
    hnone | ⟨identity, -, hsearch | ⟨-, -, call, -, -, -, -, hgarbled⟩⟩
  · exact absurd (congrArg List.length hnone) (by decide +kernel)
  · have hlength : transcript.posted.length = 1 := congrArg List.length hsearch
    exact absurd hlength (by decide +kernel)
  · exact ⟨identity, call, hgarbled⟩

end Ensure

end DirectoryReconcile
