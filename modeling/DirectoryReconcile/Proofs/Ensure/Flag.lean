import DirectoryReconcile.Proofs.Scheduling

/-!
# The flag of an object

An object says that it is enabled or that it is not, says nothing of it, or says something that
cannot be read. A run that forces the flag judges it by the object that its first call reports, or
by the object found if it posts no such call.
-/

namespace DirectoryReconcile

/-! ## What an object says -/

namespace Declaration

variable (declaration : Declaration) (object : RemoteObject)

/-- What an object carries for its flag, in canonical form if it can be read. -/
def flagOf? : Option (Except Failure AttrValue) := do
  let flag ← declaration.enable
  let spec ← declaration.attribute? flag.attr
  let raw ← object.get? spec.responseKey
  return spec.normalize raw

/-- The object says that it is enabled, or that it is not. -/
def Carries (enabled : Bool) : Prop :=
  ∃ flag, declaration.enable = some flag ∧
    declaration.flagOf? object = some (.ok (.scalar (.bool (flag.storedValue enabled))))

/-- The object has no value for its flag. -/
def LacksFlag : Prop :=
  declaration.flagOf? object = none ∨ declaration.flagOf? object = some (.ok (.scalar .null))

variable {declaration object}

theorem bne_inverted_iff {flag : EnableSpec} {stored enabled : Bool} :
    (stored != flag.inverted) = enabled ↔ stored = flag.storedValue enabled := by
  unfold EnableSpec.storedValue
  cases stored <;> cases enabled <;> cases flag.inverted <;> simp

/-- An object that says something of its flag exists. -/
theorem Carries.isEmpty_eq_false {enabled : Bool} (h : declaration.Carries object enabled) :
    object.isEmpty = false := by
  obtain ⟨flag, -, hflag⟩ := h
  obtain ⟨_, -, hflag⟩ := Option.bind_eq_some_iff.1 hflag
  obtain ⟨_, -, hflag⟩ := Option.bind_eq_some_iff.1 hflag
  obtain ⟨raw, hraw, -⟩ := Option.bind_eq_some_iff.1 hflag
  cases hempty : object.isEmpty with
  | false => rfl
  | true =>
    rw [(Dict.isEmpty_iff object).1 hempty] at hraw
    simp at hraw

end Declaration

theorem ValueKind.coerce_bool {raw : Json} {value : Scalar}
    (h : ValueKind.coerce .bool raw = .ok value) : value = .null ∨ ∃ b, value = .bool b := by
  rw [ValueKind.coerce.eq_def] at h
  split at h
  · exact .inl (Except.ok.inj h).symm
  · refine .inr ?_
    simp only [ValueKind.flagOf] at h
    split at h
    · exact ⟨_, (Except.ok.inj h).symm⟩
    · split at h
      · exact ⟨_, (Except.ok.inj h).symm⟩
      · simp at h
    · split at h
      · exact ⟨_, (Except.ok.inj h).symm⟩
      · split at h
        · exact ⟨_, (Except.ok.inj h).symm⟩
        · simp at h
    · simp at h
    · simp at h

theorem AttributeSpec.normalize_flag {spec : AttributeSpec} (hscalar : spec.isList = false)
    (hkind : spec.kind = .bool) {raw : Json} {value : AttrValue}
    (h : spec.normalize raw = .ok value) :
    value = .scalar .null ∨ ∃ b, value = .scalar (.bool b) := by
  obtain ⟨scalars, rfl, hread, -⟩ := exists_of_canonical (AttributeSpec.normalize_eq_ok_iff.1 h)
  rw [valueOf_of_not_isList hscalar]
  match scalars with
  | [] => exact .inl rfl
  | first :: rest =>
    obtain ⟨hne, element, helement⟩ := hread first List.mem_cons_self
    obtain ⟨raw, hcoerced⟩ := exists_coerce helement
    rw [hkind] at hcoerced
    obtain ⟨b, rfl⟩ := (ValueKind.coerce_bool hcoerced).resolve_left hne
    exact .inr ⟨b, rfl⟩

namespace ObjectSchema

open Declaration

variable (schema : ObjectSchema) {object : RemoteObject}

theorem isEnabled_eq_ok_iff {enabled : Bool} : schema.isEnabled object = .ok enabled ↔
    schema.Carries object enabled ∨ enabled = true ∧ schema.LacksFlag object := by
  unfold isEnabled Carries LacksFlag flagOf?
  cases henable : schema.enable with
  | none => simp [eq_comm]
  | some flag =>
    obtain ⟨spec, hspec, -, hscalar, hkind⟩ := schema.exists_flag henable
    simp only [hspec, Option.bind_eq_bind, Option.bind_some, Option.some.injEq, exists_eq_left']
    cases hraw : object.get? spec.responseKey with
    | none => simp [eq_comm]
    | some raw =>
      simp only [Option.bind_some, Option.pure_def, Option.some.injEq, reduceCtorEq, false_or]
      cases hread : spec.normalize raw with
      | error failure => simp
      | ok value =>
        rcases AttributeSpec.normalize_flag hscalar hkind hread with rfl | ⟨stored, rfl⟩
        · simp [eq_comm]
        · simp only [Except.ok.injEq, AttrValue.scalar.injEq, Scalar.bool.injEq, reduceCtorEq,
            and_false, or_false]
          exact bne_inverted_iff

theorem isEnabled_eq_error_iff {failure : Failure} : schema.isEnabled object = .error failure ↔
    schema.flagOf? object = some (.error failure) := by
  unfold isEnabled flagOf?
  cases henable : schema.enable with
  | none => simp
  | some flag =>
    obtain ⟨spec, hspec, -, hscalar, hkind⟩ := schema.exists_flag henable
    simp only [hspec, Option.bind_eq_bind, Option.bind_some]
    cases hraw : object.get? spec.responseKey with
    | none => simp
    | some raw =>
      simp only [Option.bind_some, Option.pure_def, Option.some.injEq]
      cases hread : spec.normalize raw with
      | error other => simp
      | ok value =>
        rcases AttributeSpec.normalize_flag hscalar hkind hread with rfl | ⟨stored, rfl⟩ <;> simp

end ObjectSchema

/-! ## Failures of calls -/

namespace Exchange

variable {α β σ : Type}

/-- An exchange that can fail in the errors of its replies only. -/
def FailsRemotely : Exchange α → Prop
  | .done _ => True
  | .fail failure => ∃ error, failure = .remote error
  | .note _ next => FailsRemotely next
  | .post _ next => ∀ reply, FailsRemotely (next reply)

theorem FailsRemotely.bind {exchange : Exchange α} {f : α → Exchange β}
    (h : exchange.FailsRemotely) (hf : ∀ result, (f result).FailsRemotely) :
    (exchange.bind f).FailsRemotely := by
  induction exchange with
  | done result => exact hf result
  | fail failure => exact h
  | note event next ih => exact ih h
  | post call next ih => exact fun reply ↦ ih reply (h reply)

theorem FailsRemotely.of_error {exchange : Exchange α} (h : exchange.FailsRemotely)
    {transport : Transport σ} {state : σ} {failure : Failure}
    (hresult : (run transport exchange state).1.result = .error failure) :
    ∃ error, failure = .remote error := by
  induction exchange generalizing state with
  | done result => simp [run] at hresult
  | fail other =>
    obtain rfl : other = failure := Except.error.inj hresult
    exact h
  | note event next ih => exact ih h hresult
  | post call next ih => exact ih _ (h _) hresult

theorem result_bind_of_ok {transport : Transport σ} {exchange : Exchange α} {state : σ}
    {value : α} (h : (run transport exchange state).1.result = .ok value) (f : α → Exchange β) :
    (run transport (exchange.bind f) state).1.result =
      (run transport (f value) (run transport exchange state).2).1.result := by
  simp only [run_bind, h]

theorem exists_of_bind_ok {transport : Transport σ} {exchange : Exchange α} {f : α → Exchange β}
    {state : σ} {value : β}
    (h : (run transport (exchange.bind f) state).1.result = .ok value) :
    ∃ first, (run transport exchange state).1.result = .ok first ∧
      (run transport (f first) (run transport exchange state).2).1.result = .ok value := by
  cases hfirst : (run transport exchange state).1.result with
  | error failure => simp [run_bind, hfirst] at h
  | ok first => exact ⟨first, rfl, (result_bind_of_ok hfirst f).symm.trans h⟩

end Exchange

theorem Declaration.failsRemotely_exchange (declaration : Declaration) (call : RemoteCall)
    (keep : Json → Bool) (identity : Identity) :
    (declaration.exchange call keep identity).FailsRemotely := by
  intro reply
  cases reply with
  | error error => exact ⟨error, rfl⟩
  | ok body =>
    simp only [Exchange.bind]
    cases Response.fault? call.method body with
    | none => trivial
    | some error => exact ⟨error, rfl⟩

namespace Ensure

open Exchange

variable {σ : Type} (transport : Transport σ) (declaration : Declaration) (desired : DesiredState)

theorem failsRemotely_issue (dryRun : Bool) (call : RemoteCall) :
    (issue declaration dryRun call).FailsRemotely := by
  cases dryRun with
  | true => trivial
  | false => exact (declaration.failsRemotely_exchange call _ _).bind fun _ ↦ trivial

theorem failsRemotely_issueAll (dryRun : Bool) (last : Option RemoteObject)
    (calls : List RemoteCall) : (issueAll declaration dryRun last calls).FailsRemotely := by
  induction calls generalizing last with
  | nil => trivial
  | cons call rest ih => exact (failsRemotely_issue declaration dryRun call).bind fun _ ↦ ih _

/-- The call that sets a forced flag is left out for an object that has it already. -/
theorem enableCall_of_forced {declaration : Declaration} {identity : Identity} {state : TargetState}
    {enabled : Bool} {flag : EnableSpec}
    (h : Difference.forcedFlag declaration state = some (enabled, flag)) (object : RemoteObject) :
    enableCall declaration identity state object = (declaration.isEnabled object).map fun stored ↦
      if stored = enabled then none
      else some (.plain
        (if enabled then declaration.methods.enable else declaration.methods.disable)
        (declaration.positional identity)) := by
  simp only [enableCall, h]
  cases declaration.isEnabled object with
  | error failure => rfl
  | ok stored =>
    simp only [Bind.bind, Except.bind, Except.map, pure, Except.pure]
    by_cases hset : stored = enabled
    · rw [if_pos hset, if_pos hset]
    · rw [if_neg hset, if_neg hset]

theorem forced_of_enableCall_error {declaration : Declaration} {identity : Identity}
    {state : TargetState} {object : RemoteObject} {failure : Failure}
    (h : enableCall declaration identity state object = .error failure) :
    state.forcedEnable.isSome ∧ declaration.isEnabled object = .error failure := by
  cases hforced : Difference.forcedFlag declaration state with
  | none =>
    unfold enableCall at h
    rw [hforced] at h
    cases h
  | some forced =>
    rw [enableCall_of_forced hforced] at h
    refine ⟨by rw [(forcedFlag_eq_some_iff.1 hforced).1]; rfl, ?_⟩
    cases hread : declaration.isEnabled object with
    | ok stored =>
      rw [hread] at h
      cases h
    | error other =>
      rw [hread] at h
      exact congrArg _ (Except.error.inj h)

/-! ## The object that the flag is judged by -/

/-- The object that is known once the first call was issued, if there is one: the object that its
reply reports, or the object found if nothing is posted. -/
inductive Baseline (dryRun : Bool) (found : RemoteObject) (state : σ) :
    Option RemoteCall → RemoteObject → Prop
  | found {first : Option RemoteCall} (hnone : dryRun = true ∨ first = none) :
    Baseline dryRun found state first found
  | reported {call : RemoteCall} {body : Json} (hreal : dryRun = false)
      (hreply : (transport state call.method call.params).1 = .ok body)
      (hhealthy : Response.fault? call.method body = none) :
    Baseline dryRun found state (some call)
      (Response.object declaration (fun _ ↦ true) (declaration.identityOfCall call) body)

variable {transport declaration desired} {dryRun : Bool} {found baseline : RemoteObject} {state : σ}
  {first : Option RemoteCall}

theorem result_issueAll_single (transport : Transport σ) (declaration : Declaration)
    (call : RemoteCall) (state : σ) :
    (Exchange.run transport (issueAll declaration false none [call]) state).1.result =
      (answer declaration call (fun _ ↦ true) (declaration.identityOfCall call)
        (transport state call.method call.params).1).map some := by
  simp only [issueAll, bind_eq, run_bind, run_issue_eq]
  cases answer declaration call _ _ (transport state call.method call.params).1 <;> rfl

/-- The first call leaves an object behind, unless its reply is an error. -/
theorem baseline_or_error (declaration : Declaration) (dryRun : Bool) (found : RemoteObject)
    (state : σ) (first : Option RemoteCall) :
    (∃ baseline, Baseline transport declaration dryRun found state first baseline) ∨
      ∃ error, (Exchange.run transport (issueAll declaration dryRun none first.toList)
        state).1.result = .error (.remote error) := by
  cases first with
  | none => exact .inl ⟨found, .found (.inr rfl)⟩
  | some call =>
    cases dryRun with
    | true => exact .inl ⟨found, .found (.inl rfl)⟩
    | false =>
      have hresult := result_issueAll_single transport declaration call state
      cases hreply : (transport state call.method call.params).1 with
      | error error =>
        rw [hreply] at hresult
        exact .inr ⟨error, hresult⟩
      | ok body =>
        cases hfault : Response.fault? call.method body with
        | none => exact .inl ⟨_, .reported rfl hreply hfault⟩
        | some error =>
          simp only [hreply, answer, hfault] at hresult
          exact .inr ⟨error, hresult⟩

theorem Baseline.result_issueAll
    (h : Baseline transport declaration dryRun found state first baseline) :
    ∃ created, (Exchange.run transport (issueAll declaration dryRun none first.toList)
      state).1.result = .ok created ∧ created.getD found = baseline := by
  cases h with
  | @found first hnone =>
    rcases hnone with rfl | rfl
    · cases first <;> exact ⟨none, rfl, rfl⟩
    · exact ⟨none, rfl, rfl⟩
  | @reported call body hreal hreply hhealthy =>
    subst hreal
    refine ⟨some _, (result_issueAll_single transport declaration call state).trans ?_, rfl⟩
    simp only [hreply, answer, hhealthy]
    rfl

/-- What a run does with the changes of an object, once its first call left an object behind: the
flag of that object cannot be read, or decides whether there is a call that sets it. -/
theorem Baseline.run_apply {identity : Identity} {changes : ChangeSet}
    (h : Baseline transport declaration desired.dryRun found state
      (primaryCall declaration identity (actionFor found) changes) baseline) :
    let first := primaryCall declaration identity (actionFor found) changes
    let lists := listCalls declaration identity (afterPrimary declaration (actionFor found) changes)
    let transcript := (Exchange.run transport
      (apply declaration desired identity found changes) state).1
    match enableCall declaration identity desired.state baseline with
    | .error failure => transcript.posted = sent desired.dryRun first.toList ∧
        transcript.result = .error failure
    | .ok flag =>
      (∀ outcome, transcript.result = .ok outcome →
        transcript.posted = sent desired.dryRun (first.toList ++ flag.toList ++ lists)) ∧
      ∀ failure, transcript.result = .error failure → ∃ error, failure = .remote error := by
  intro first lists transcript
  obtain ⟨created, hcreated, rfl⟩ := h.result_issueAll
  have hfirst := follows_issueAll transport declaration desired.dryRun none first.toList state
  cases hflag : enableCall declaration identity desired.state (created.getD found) with
  | error failure =>
    simp only [transcript, apply, bind_eq, run_bind, hcreated, hflag, Exchange.ofExcept,
      Exchange.bind, Exchange.run, List.append_nil]
    exact ⟨(hfirst.completed created hcreated).1, trivial⟩
  | ok flag =>
    refine ⟨fun outcome houtcome ↦ ?_, fun failure hfailure ↦ ?_⟩
    · have hfollows : Follows desired.dryRun (first.toList ++ (flag.toList ++ lists)) (fun _ ↦ True)
          transcript := by
        refine hfirst.bind fun other hother _ ↦ ?_
        cases hcreated.symm.trans hother
        simp only [hflag]
        refine (follows_issueAll transport declaration desired.dryRun none flag.toList _).bind
          fun flagged _ _ ↦ ?_
        exact (follows_issueAll transport declaration desired.dryRun none lists _).bind_nil
          fun listed _ _ ↦ Follows.note _ (follows_done trivial)
      rw [(hfollows.completed outcome houtcome).1, List.append_assoc]
    · refine FailsRemotely.of_error ?_ ((result_bind_of_ok hcreated _).symm.trans hfailure)
      simp only [hflag]
      refine (failsRemotely_issueAll declaration _ _ _).bind fun flagged ↦ ?_
      exact (failsRemotely_issueAll declaration _ _ _).bind fun listed ↦ trivial

/-- A run fails with an error of a reply, or its first call leaves an object behind that decides
about the flag. -/
theorem apply_cases (transport : Transport σ) (declaration : Declaration) (desired : DesiredState)
    (identity : Identity) (found : RemoteObject) (changes : ChangeSet) (state : σ) :
    (∃ error, (Exchange.run transport (apply declaration desired identity found changes)
        state).1.result = .error (.remote error)) ∨
      ∃ baseline, Baseline transport declaration desired.dryRun found state
        (primaryCall declaration identity (actionFor found) changes) baseline := by
  rcases baseline_or_error declaration desired.dryRun found state
    (primaryCall declaration identity (actionFor found) changes) with hbaseline | ⟨error, herror⟩
  · exact .inr hbaseline
  · refine .inl ⟨error, ?_⟩
    simp only [apply, bind_eq, run_bind, herror]

theorem state_after_search (identity : Identity) (state : σ) :
    (Exchange.run transport (declaration.find identity) state).2 =
      transport.after [declaration.findCall identity] state := by
  rw [run_state, Declaration.find, run_exchange]

end Ensure

end DirectoryReconcile
