import DirectoryReconcile.Proofs.Scheduling

/-!
# What a trace says

A run tells of each call before it posts it, or instead of posting it. So its events name the calls
that it posted after the search, also when the last of them failed, and those that its outcome
lists: three records kept apart that agree wherever the run ends.
-/

namespace DirectoryReconcile

namespace Event

/-- The methods that the events of a stage name, in order. -/
def methodsAt (stage : Stage) (events : List Event) : List (Option String) :=
  (events.filter fun event ↦ event.stage = stage).map (·.method)

theorem methodsAt_append (stage : Stage) (events more : List Event) :
    methodsAt stage (events ++ more) = methodsAt stage events ++ methodsAt stage more := by
  simp [methodsAt]

theorem methodsAt_of_not_mem {stage : Stage} {events : List Event}
    (h : stage ∉ events.map (·.stage)) : methodsAt stage events = [] := by
  simpa [methodsAt] using h

theorem calledMethods_eq (events : List Event) :
    calledMethods events = (methodsAt .call events).filterMap id := by
  simp [calledMethods, methodsAt, List.filterMap_map]

end Event

namespace Exchange

open Event

variable {α β σ : Type} {transport : Transport σ} {state : σ} {dryRun : Bool}
  {opening : List Event} {ending : α → List Event} {ending' : β → List Event}
  {good : List RemoteCall → α → Prop} {good' : List RemoteCall → β → Prop}

/-- The stage of the events that tell of calls. -/
def issuing (dryRun : Bool) : Stage := if dryRun then .skipped else .call

/-- The event that tells of a call. -/
def telling (dryRun : Bool) (call : RemoteCall) : Event :=
  ⟨issuing dryRun, some call.method, call.display⟩

theorem methodsAt_issuing (dryRun : Bool) (calls : List RemoteCall) :
    methodsAt (issuing dryRun) (calls.map (telling dryRun)) =
      calls.map fun call ↦ some call.method := by
  rw [methodsAt, List.filter_eq_self.2, List.map_map]
  · rfl
  · simp [telling]

theorem methodsAt_call (dryRun : Bool) (calls : List RemoteCall) :
    methodsAt .call (calls.map (telling dryRun)) =
      (sent dryRun calls).map fun call ↦ some call.method := by
  cases dryRun with
  | false => exact methodsAt_issuing false calls
  | true => exact methodsAt_of_not_mem (by simp [telling, issuing])

/-- A transcript that tells of every call it posted, after some events to open with. If the run
ended well, it was good that these calls were issued, and some events close it. -/
def Tells (dryRun : Bool) (opening : List Event) (ending : α → List Event)
    (good : List RemoteCall → α → Prop) (transcript : Transcript α) : Prop :=
  ∃ issued, transcript.posted = sent dryRun issued ∧
    match transcript.result with
    | .ok value => good issued value ∧
        transcript.events = opening ++ issued.map (telling dryRun) ++ ending value
    | .error _ => transcript.events = opening ++ issued.map (telling dryRun)

theorem sent_nil (dryRun : Bool) : sent dryRun [] = [] := by cases dryRun <;> rfl

theorem tells_done {value : α} (hvalue : good [] value) :
    Tells dryRun [] (fun _ ↦ []) good (run transport (.done value) state).1 :=
  ⟨[], (sent_nil dryRun).symm, hvalue, rfl⟩

theorem tells_fail (failure : Failure) :
    Tells dryRun [] ending good (run transport (.fail failure) state).1 :=
  ⟨[], (sent_nil dryRun).symm, rfl⟩

theorem Tells.mono {good' : List RemoteCall → α → Prop} {transcript : Transcript α}
    (h : Tells dryRun opening ending good transcript)
    (hgood : ∀ issued value, good issued value → good' issued value) :
    Tells dryRun opening ending good' transcript := by
  obtain ⟨issued, hposted, hresult⟩ := h
  refine ⟨issued, hposted, ?_⟩
  cases hended : transcript.result with
  | error failure => rwa [hended] at hresult
  | ok value =>
    rw [hended] at hresult
    exact ⟨hgood issued value hresult.1, hresult.2⟩

theorem Tells.note {exchange : Exchange α} (event : Event)
    (h : Tells dryRun opening ending good (run transport exchange state).1) :
    Tells dryRun (event :: opening) ending good (run transport (.note event exchange) state).1 := by
  obtain ⟨issued, hposted, hresult⟩ := h
  refine ⟨issued, hposted, ?_⟩
  unfold run
  generalize run transport exchange state = ran at hresult ⊢
  obtain ⟨⟨ended, events, posted⟩, next⟩ := ran
  cases ended with
  | error failure => exact congrArg (event :: ·) hresult
  | ok value => exact ⟨hresult.1, congrArg (event :: ·) hresult.2⟩

/-- One run after another tells of the calls of both. -/
theorem Tells.bind {exchange : Exchange α} {f : α → Exchange β}
    (h : Tells dryRun opening (fun _ ↦ []) good (run transport exchange state).1)
    (hnext : ∀ issued value, good issued value → Tells dryRun [] ending'
      (fun issued' ↦ good' (issued ++ issued'))
      (run transport (f value) (run transport exchange state).2).1) :
    Tells dryRun opening ending' good' (run transport (exchange.bind f) state).1 := by
  obtain ⟨issued, hposted, hresult⟩ := h
  rw [run_bind]
  generalize run transport exchange state = ran at hposted hresult hnext ⊢
  obtain ⟨⟨ended, events, posted⟩, next⟩ := ran
  cases ended with
  | error failure => exact ⟨issued, hposted, hresult⟩
  | ok value =>
    obtain ⟨hgood, hevents⟩ := hresult
    obtain ⟨issued', hposted', hresult'⟩ := hnext issued value hgood
    simp only [List.append_nil] at hevents hposted
    refine ⟨issued ++ issued', ?_, ?_⟩
    · rw [sent_append, ← hposted, ← hposted']
    · simp only [hevents]
      cases hended : (run transport (f value) next).1.result with
      | error failure =>
        rw [hended] at hresult'
        simp only [hresult', List.nil_append, List.map_append, List.append_assoc]
      | ok result =>
        rw [hended] at hresult'
        refine ⟨hresult'.1, ?_⟩
        simp only [hresult'.2, List.nil_append, List.map_append, List.append_assoc]

theorem Tells.ofExcept_bind {x : Except Failure α} {f : α → Exchange β}
    (hf : ∀ value, x = .ok value →
      Tells dryRun [] ending' good' (run transport (f value) state).1) :
    Tells dryRun [] ending' good' (run transport ((ofExcept x).bind f) state).1 := by
  cases x with
  | error failure => exact tells_fail failure
  | ok value => exact hf value rfl

end Exchange

namespace Ensure

open Exchange Event

variable {σ : Type} (transport : Transport σ) (declaration : Declaration) (desired : DesiredState)

theorem tells_issue (dryRun : Bool) (call : RemoteCall) (state : σ) :
    Tells dryRun [] (fun _ ↦ []) (fun issued _ ↦ issued = [call])
      (Exchange.run transport (issue declaration dryRun call) state).1 := by
  cases dryRun with
  | true => exact ⟨[call], rfl, rfl, rfl⟩
  | false =>
    refine ⟨[call], ?_⟩
    simp only [run_issue_eq]
    generalize answer declaration call _ _ _ = result
    cases result <;> simp [sent, telling, issuing, Except.map]

theorem tells_issueAll (dryRun : Bool) (last : Option RemoteObject) (calls : List RemoteCall)
    (state : σ) :
    Tells dryRun [] (fun _ ↦ []) (fun issued _ ↦ issued = calls)
      (Exchange.run transport (issueAll declaration dryRun last calls) state).1 := by
  induction calls generalizing last state with
  | nil => exact tells_done rfl
  | cons call rest ih =>
    refine (tells_issue transport declaration dryRun call state).bind
      fun issued reported hissued ↦ ?_
    subst hissued
    simpa using ih (reported.or last) _

/-- The event that closes a run. -/
def closing (outcome : Outcome) : List Event :=
  [⟨.done, none, "changed=" ++ toString outcome.changed ++ " calls=" ++
    toString outcome.calls.length⟩]

theorem tells_finish (dryRun : Bool) (calls : List RemoteCall) (object : RemoteObject) (state : σ) :
    Tells dryRun [] closing (fun issued outcome ↦ issued = [] ∧ outcome.calls = calls)
      (Exchange.run transport (finish declaration dryRun calls object) state).1 :=
  ⟨[], (sent_nil dryRun).symm, ⟨rfl, rfl⟩, rfl⟩

theorem tells_apply (identity : Identity) (found : RemoteObject) (changes : ChangeSet) (state : σ) :
    Tells desired.dryRun [] closing (fun issued outcome ↦ outcome.calls = issued)
      (Exchange.run transport (apply declaration desired identity found changes) state).1 := by
  refine (tells_issueAll transport declaration _ none _ state).bind
    fun primary created hprimary ↦ ?_
  refine Tells.ofExcept_bind fun enabling _ ↦ ?_
  refine (tells_issueAll transport declaration _ none _ _).bind fun flags flagged hflags ↦ ?_
  refine (tells_issueAll transport declaration _ none _ _).bind fun lists listed hlists ↦ ?_
  subst hprimary hflags hlists
  refine (tells_finish transport declaration _ _ _ _).mono ?_
  rintro _ outcome ⟨rfl, hcalls⟩
  rw [hcalls, List.append_nil, List.append_assoc]

/-- What follows the search tells of its calls, after it told of its plan if it has one. -/
theorem tells_conclude (identity : Identity) (found : RemoteObject) (state : σ) :
    ∃ opening, opening.map (·.stage) <+: [.plan] ∧
      Tells desired.dryRun opening closing (fun issued outcome ↦ outcome.calls = issued)
        (Exchange.run transport (conclude declaration desired identity found) state).1 := by
  unfold conclude
  split
  · refine ⟨[], List.nil_prefix, (tells_finish transport declaration _ _ _ _).mono ?_⟩
    rintro _ outcome ⟨rfl, hcalls⟩
    exact hcalls
  split
  · refine ⟨[], List.nil_prefix, ?_⟩
    refine (tells_issue transport declaration _ _ state).bind fun issued _ hissued ↦ ?_
    subst hissued
    refine (tells_finish transport declaration _ _ _ _).mono ?_
    rintro _ outcome ⟨rfl, hcalls⟩
    exact hcalls
  cases plan declaration desired found with
  | error failure => exact ⟨[], List.nil_prefix, tells_fail failure⟩
  | ok changes =>
    exact ⟨[_], List.prefix_refl _,
      (tells_apply transport declaration desired identity found changes state).note _⟩

/-- A transcript of a run in its parts: the events before the calls, the calls that it told of, and
the events after them. -/
structure Told (desired : DesiredState) (transcript : Transcript Outcome) (opening : List Event)
    (issued : List RemoteCall) (ending : List Event) : Prop where
  events : transcript.events = opening ++ issued.map (telling desired.dryRun) ++ ending
  posted : transcript.posted.tail = sent desired.dryRun issued
  opens : opening.map (·.stage) <+: [.validate, .find, .plan]
  searched : (issued = [] ∧ ∃ failure, transcript.result = .error failure) ∨
    [.validate, .find] <+: opening.map (·.stage)
  ended : match transcript.result with
    | .ok outcome => outcome.calls = issued ∧ ending = closing outcome
    | .error _ => ending = []

theorem told_run (state : σ) : ∃ opening issued ending, Told desired
    (Exchange.run transport (run declaration desired) state).1 opening issued ending := by
  cases hvalidate : validate declaration desired with
  | error failure =>
    rw [run, hvalidate]
    exact ⟨[], [], [], rfl, (sent_nil _).symm, List.nil_prefix, .inl ⟨rfl, failure, rfl⟩, rfl⟩
  | ok identity =>
    rw [run_eq hvalidate]
    simp only [Exchange.run, run_bind, Declaration.find, run_exchange]
    obtain ⟨reply, next⟩ := transport state (declaration.findCall identity).method
      (declaration.findCall identity).params
    generalize answer declaration (declaration.findCall identity) _ _ reply = ended
    cases ended with
    | error failure =>
      exact ⟨[⟨.validate, none, _⟩], [], [], rfl, (sent_nil _).symm, ⟨[.find, .plan], rfl⟩,
        .inl ⟨rfl, failure, rfl⟩, rfl⟩
    | ok found =>
      obtain ⟨opening, hopening, issued, hposted, hresult⟩ :=
        tells_conclude transport declaration desired identity found next
      simp only
      generalize Exchange.run transport (conclude declaration desired identity found) next = rest
        at hposted hresult ⊢
      obtain ⟨⟨ended, events, posted⟩, last⟩ := rest
      have hopens := (List.prefix_append_right_inj [Stage.validate, .find]).2 hopening
      have hsearched : [Stage.validate, .find] <+: .validate :: .find :: opening.map (·.stage) :=
        ⟨opening.map (·.stage), rfl⟩
      cases ended with
      | error failure =>
        obtain rfl := hresult
        exact ⟨⟨.validate, none, _⟩ :: ⟨.find, _, _⟩ :: opening, issued, [],
          (List.append_nil _).symm, hposted, hopens, .inr hsearched, rfl⟩
      | ok outcome =>
        obtain ⟨hcalls, rfl⟩ := hresult
        exact ⟨⟨.validate, none, _⟩ :: ⟨.find, _, _⟩ :: opening, issued, closing outcome,
          rfl, hposted, hopens, .inr hsearched, hcalls, rfl⟩

section

variable {desired : DesiredState} {transcript : Transcript Outcome} {opening ending : List Event}
  {issued : List RemoteCall} (h : Told desired transcript opening issued ending)

include h

theorem Told.map_stage_ending :
    ending.map (·.stage) = if transcript.result.isOk then [.done] else [] := by
  have hended := h.ended
  cases hresult : transcript.result with
  | error failure =>
    rw [hresult] at hended
    rw [hended]
    rfl
  | ok outcome =>
    rw [hresult] at hended
    rw [hended.2]
    rfl

/-- Only the calls that a run told of are told of at this stage. -/
theorem Told.methodsAt_eq {stage : Stage} (hstage : stage = .call ∨ stage = .skipped) :
    methodsAt stage transcript.events =
      methodsAt stage (issued.map (telling desired.dryRun)) := by
  have hopening : stage ∉ opening.map (·.stage) := fun hmem ↦ by
    have hopens := h.opens.subset hmem
    rcases hstage with rfl | rfl <;> simp at hopens
  have hending : stage ∉ ending.map (·.stage) := by
    rw [h.map_stage_ending]
    rcases hstage with rfl | rfl <;> split <;> simp
  rw [h.events, methodsAt_append, methodsAt_append, methodsAt_of_not_mem hopening,
    methodsAt_of_not_mem hending, List.nil_append, List.append_nil]

theorem Told.methodsAt_call : methodsAt .call transcript.events =
    transcript.posted.tail.map fun call ↦ some call.method := by
  rw [h.methodsAt_eq (.inl rfl), Exchange.methodsAt_call, h.posted]

theorem Told.methodsAt_issuing : methodsAt (issuing desired.dryRun) transcript.events =
    issued.map fun call ↦ some call.method := by
  have hstage : issuing desired.dryRun = .call ∨ issuing desired.dryRun = .skipped := by
    cases desired.dryRun
    · exact .inl rfl
    · exact .inr rfl
  rw [h.methodsAt_eq hstage, Exchange.methodsAt_issuing]

end

/-- The calls that a run posts after the search are those that its events name, wherever it ends. A
run that ends well lists the same calls in its outcome, and a dry run those that it told of and
skipped. The events come in order: the request is valid, the object was searched for, there is a
plan, the calls, and the end if the run ends well. -/
theorem ensure_trace_agrees (schema : ObjectSchema) (state : σ) :
    let transcript := (Exchange.run transport (run schema.toDeclaration desired) state).1
    (match validate schema.toDeclaration desired with
      | .error _ => transcript.posted = []
      | .ok identity => transcript.posted = schema.findCall identity :: transcript.posted.tail) ∧
    calledMethods transcript.events = transcript.posted.tail.map (·.method) ∧
    methodsAt .call transcript.events =
      transcript.posted.tail.map (fun call ↦ some call.method) ∧
    (desired.dryRun = true → methodsAt .call transcript.events = []) ∧
    (∀ outcome, transcript.result = .ok outcome →
      methodsAt (issuing desired.dryRun) transcript.events =
        outcome.calls.map fun call ↦ some call.method) ∧
    ∃ opening issued ending, transcript.events = opening ++ issued ++ ending ∧
      opening.map (·.stage) <+: [.validate, .find, .plan] ∧
      (∀ event ∈ issued, event.stage = issuing desired.dryRun) ∧
      (issued ≠ [] ∨ transcript.result.isOk → [.validate, .find] <+: opening.map (·.stage)) ∧
      ending.map (·.stage) = if transcript.result.isOk then [.done] else [] := by
  intro transcript
  obtain ⟨opening, issued, ending, htold⟩ :=
    told_run transport schema.toDeclaration desired state
  have hcalls := htold.methodsAt_call
  refine ⟨?_, ?_, hcalls, fun hdry ↦ ?_, fun outcome houtcome ↦ ?_, opening, _, ending,
    htold.events, htold.opens, ?_, fun hreached ↦ ?_, htold.map_stage_ending⟩
  · cases hvalidate : validate schema.toDeclaration desired with
    | error failure =>
      simp only [transcript, run, hvalidate]
      rfl
    | ok identity =>
      rcases run_after_search transport schema.toDeclaration desired hvalidate state with
        ⟨failure, -, hposted, -⟩ | ⟨found, -, hposted, -⟩
      all_goals
        simp only [transcript, hposted]
        rfl
  · rw [calledMethods_eq, hcalls, List.filterMap_map]
    exact congrFun (List.filterMap_eq_map (f := RemoteCall.method)) _
  · rw [hcalls, htold.posted, hdry]
    rfl
  · have hended := htold.ended
    rw [houtcome] at hended
    rw [htold.methodsAt_issuing, hended.1]
  · simp [telling]
  · refine htold.searched.resolve_left ?_
    rintro ⟨rfl, failure, hfailure⟩
    rw [hfailure] at hreached
    simp [Except.isOk, Except.toBool] at hreached

end Ensure

end DirectoryReconcile
