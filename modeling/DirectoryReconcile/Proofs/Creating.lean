import DirectoryReconcile.Proofs.Differences.Creation
import DirectoryReconcile.Proofs.Flagging

/-!
# Runs that find nothing

Such a run plans from an empty object, which has nothing to remove and counts as enabled. Its first
call can create the object, with one exception: an object that its first list value creates, and
that is to be disabled, is disabled before that value is added, unless scalars are assigned first.
-/

namespace DirectoryReconcile

namespace Ensure

open Exchange Declaration Difference

variable {σ : Type} {transport : Transport σ} {declaration : Declaration} {desired : DesiredState}
  {identity : Identity} {found : RemoteObject} {changes : ChangeSet} {state : σ}

/-! ## The plan -/

theorem listRemoves_withoutFlag (declaration : Declaration) (state : TargetState)
    (changes : ChangeSet) :
    (withoutFlag declaration state changes).listRemoves = changes.listRemoves := by
  unfold withoutFlag
  split <;> rfl

theorem get?_withoutFlag {name : String} (hflag : declaration.isEnableAttribute name = false)
    (state : TargetState) (changes : ChangeSet) :
    (withoutFlag declaration state changes).scalars.get? name = changes.scalars.get? name := by
  unfold withoutFlag
  split
  next enabled flag hforced =>
    obtain ⟨-, henable⟩ := forcedFlag_eq_some_iff.1 hforced
    have hne : flag.attr ≠ name := fun heq ↦
      Bool.false_ne_true (hflag.symm.trans (isEnableAttribute_iff.2 ⟨flag, henable, heq⟩))
    rw [Dict.get?_erase, if_neg hne]
  next => rfl

/-- The flag is left to its own call, whether the state forces it or not. -/
theorem get?_withoutFlag_flag {object : RemoteObject} {action : Action} {current wanted : Canonical}
    (hspec : Difference.Views declaration object desired action current wanted) {name : String}
    (hflag : declaration.isEnableAttribute name = true) :
    (withoutFlag declaration desired.state
      (Difference.changes desired.state current wanted)).scalars.get? name = none := by
  obtain ⟨flag, henable, rfl⟩ := isEnableAttribute_iff.1 hflag
  unfold withoutFlag
  cases hforced : desired.state.forcedEnable with
  | some enabled =>
    rw [forcedFlag_eq_some_iff.2 ⟨hforced, henable⟩]
    exact (Dict.get?_erase _ _ _).trans (if_pos rfl)
  | none =>
    have hnone : forcedFlag declaration desired.state = none := by simp [forcedFlag, hforced]
    obtain ⟨henabled, hdisabled⟩ := TargetState.forcedEnable_eq_none_iff.1 hforced
    obtain ⟨hcurrent, hwanted⟩ := hspec.unforced henabled hdisabled _ hflag
    rw [hnone]
    exact (omits_changes _ hcurrent hwanted).scalars

section

variable (schema : ObjectSchema) {current wanted : Canonical}
  (hspec : Difference.Views schema.toDeclaration ∅ desired .add current wanted)
  (hempty : ∀ name, schema.isEnableAttribute name = false → current.get? name = none)
  (hstate : desired.state ≠ .absent)

include hspec hempty hstate

theorem listRemoves_of_empty :
    (Difference.changes desired.state current wanted).listRemoves = ∅ := by
  have hdifference := changes_isDifference desired.state hspec.sameKinds
  refine hdifference.lists_eq_empty (.inr rfl) fun name v hv ↦ ?_
  rcases (hdifference.removes name v).1 hv with ⟨hexact, hcurrent, -⟩ | ⟨habsent, -⟩
  · have hnone : current.get? name = none := by
      cases hflag : schema.isEnableAttribute name with
      | false => exact hempty name hflag
      | true => exact (hspec.unforced (by simp [hexact]) (by simp [hexact]) name hflag).1
    simp [Canonical.listOf, hnone] at hcurrent
  · exact hstate habsent

/-- Nothing is assigned to create an object exactly if no scalar is requested that can be written
then. -/
theorem scalars_of_empty_iff :
    (withoutFlag schema.toDeclaration desired.state
        (Difference.changes desired.state current wanted)).scalars = ∅ ↔
      ∀ name v, Wants schema.toDeclaration desired .add name (.scalar v) → v = .null := by
  have hdifference := changes_isDifference desired.state hspec.sameKinds
  have hnull {name : String} (hflag : schema.isEnableAttribute name = false) :
      current.scalarOf name = .null := by rw [Canonical.scalarOf, hempty name hflag]
  rw [Dict.eq_empty_iff]
  constructor
  · intro hnone name v hwants
    by_contra hne
    have hflag : schema.isEnableAttribute name = false := by
      rw [← Bool.not_eq_true]
      exact fun hflag ↦ not_wants_flag hflag hwants
    have hassigned : (Difference.changes desired.state current wanted).scalars.get? name = some v :=
      (hdifference.scalars name v).2 ⟨hstate,
        .inl ⟨(hspec.wants name _ hflag).2 hwants, fun heq ↦ hne (heq.symm.trans (hnull hflag))⟩⟩
    have hleft := (get?_withoutFlag hflag desired.state _).symm.trans (hnone name)
    cases hassigned.symm.trans hleft
  · intro hwants name
    cases hflag : schema.isEnableAttribute name with
    | true => exact get?_withoutFlag_flag hspec hflag
    | false =>
      rw [get?_withoutFlag hflag]
      refine Option.eq_none_iff_forall_ne_some.2 fun v hv ↦ ?_
      obtain ⟨-, ⟨hwanted, hne⟩ | ⟨-, -, -, hne⟩⟩ := (hdifference.scalars name v).1 hv
      · rw [hwants name v ((hspec.wants name _ hflag).1 hwanted)] at hne
        exact hne (hnull hflag)
      · exact hne (hnull hflag)

end

theorem actionFor_empty : actionFor (∅ : RemoteObject) = .add := rfl

/-- A valid request for an object that does not exist has a plan, which removes nothing. -/
theorem exists_plan_empty (schema : ObjectSchema)
    (hvalidate : validate schema.toDeclaration desired = .ok identity)
    (hstate : desired.state ≠ .absent) :
    ∃ changes, plan schema.toDeclaration desired ∅ = .ok changes ∧ changes.listRemoves = ∅ ∧
      (changes.scalars = ∅ ↔
        ∀ name v, Wants schema.toDeclaration desired .add name (.scalar v) → v = .null) := by
  obtain ⟨current, wanted, hviews, hspec, hempty⟩ := exists_views_empty schema hvalidate .add
  refine ⟨withoutFlag schema.toDeclaration desired.state
    (Difference.changes desired.state current wanted), ?_,
    (listRemoves_withoutFlag _ _ _).trans (listRemoves_of_empty schema hspec hempty hstate),
    scalars_of_empty_iff schema hspec hempty hstate⟩
  have hcompute : compute schema.toDeclaration ∅ desired .add =
      .ok (Difference.changes desired.state current wanted) := bind_eq_ok.2 ⟨_, hviews, rfl⟩
  simp only [plan, actionFor_empty, hstate, ne_eq, not_false_eq_true, if_true,
    checkApplicability_empty, hcompute]
  rfl

/-! ## The calls -/

/-- A call that can bring an object into being: the one that creates it, or one that adds values to
its lists. -/
def CanCreate (declaration : Declaration) (call : RemoteCall) : Prop :=
  call.method = declaration.methods.add ∨ IsListCall declaration true call

/-- The object comes into being with its first list value and is to be disabled, and no scalar is
requested that a call before could assign. -/
structure DisablesFirst (declaration : Declaration) (desired : DesiredState) : Prop where
  creation : declaration.creation = .implicit
  disabled : desired.state = .disabled
  unassigned : ∀ name v, Wants declaration desired .add name (.scalar v) → v = .null

/-- An object that does not exist counts as enabled, so only a call that disables it is due. -/
theorem enableCall_empty (schema : ObjectSchema) (identity : Identity) (state : TargetState) :
    enableCall schema.toDeclaration identity state ∅ =
      .ok (if state = .disabled then forcedCall schema.toDeclaration identity state else none) := by
  cases hforced : forcedFlag schema.toDeclaration state with
  | none => simp [enableCall, forcedCall, hforced]
  | some forced =>
    obtain ⟨enabled, flag⟩ := forced
    obtain ⟨hstate, henable⟩ := forcedFlag_eq_some_iff.1 hforced
    obtain ⟨spec, hspec, -⟩ := schema.exists_flag henable
    have henabled : schema.isEnabled ∅ = .ok true := by
      simp [Declaration.isEnabled, henable, hspec]
    rw [enableCall_of_forced hforced, henabled, forcedCall, hforced]
    cases state <;> cases hstate <;> rfl

/-- The first of the calls that are issued is posted, however the run goes on. -/
theorem posted_issueAll_cons {α : Type} (transport : Transport σ) (declaration : Declaration)
    (last : Option RemoteObject) (call : RemoteCall) (calls : List RemoteCall)
    (f : Option RemoteObject → Exchange α) (state : σ) :
    ∃ rest, (Exchange.run transport ((issueAll declaration false last (call :: calls)).bind f)
      state).1.posted = call :: rest := ⟨_, rfl⟩

/-- Where no call comes before it, the flag is judged by the object found. -/
theorem apply_of_no_primary {flag : Option RemoteCall}
    (hprimary : primaryCall declaration identity (actionFor found) changes = none)
    (hflag : enableCall declaration identity desired.state found = .ok flag) :
    let lists := listCalls declaration identity (afterPrimary declaration (actionFor found) changes)
    apply declaration desired identity found changes =
      (issueAll declaration desired.dryRun none flag.toList).bind fun flagged ↦
        (issueAll declaration desired.dryRun none lists).bind fun listed ↦
          finish declaration desired.dryRun (flag.toList ++ lists)
            ((listed.or (flagged.map (withFlag declaration desired.state found))).getD found) := by
  simp only [apply, hprimary, Option.toList_none, issueAll, pure_eq_done, bind_eq, Exchange.bind,
    Option.getD_none, hflag, Exchange.ofExcept, List.nil_append]

/-- The calls of a run for an object that does not exist. The flag is set only after a call that
creates the object, or to disable it. -/
theorem follows_apply_empty (transport : Transport σ) (schema : ObjectSchema)
    (desired : DesiredState) (identity : Identity) (changes : ChangeSet) (state : σ) :
    ∃ flag, (flag = none ∨ flag = forcedCall schema.toDeclaration identity desired.state) ∧
      (primaryCall schema.toDeclaration identity .add changes = none →
        desired.state ≠ .disabled → flag = none) ∧
      Follows desired.dryRun (changeSchedule schema.toDeclaration identity ∅ changes flag).calls
        (fun _ ↦ True)
        (Exchange.run transport (apply schema.toDeclaration desired identity ∅ changes) state).1 := by
  cases hprimary : primaryCall schema.toDeclaration identity .add changes with
  | some first =>
    obtain ⟨flag, hflag, hfollows⟩ :=
      follows_apply transport schema.toDeclaration desired identity ∅ changes state
    exact ⟨flag, hflag, by simp, hfollows.mono fun _ _ ↦ trivial⟩
  | none =>
    have hflag := enableCall_empty schema identity desired.state
    refine ⟨_, enableCall_eq_ok hflag, fun _ hstate ↦ if_neg hstate, ?_⟩
    have hcalls (flag : Option RemoteCall) :
        (changeSchedule schema.toDeclaration identity ∅ changes flag).calls = flag.toList ++
          listCalls schema.toDeclaration identity
            (afterPrimary schema.toDeclaration .add changes) := by
      simp only [changeSchedule, Schedule.calls, listCalls]
      rw [actionFor_empty, hprimary]
      rfl
    rw [hcalls, apply_of_no_primary hprimary hflag]
    refine (follows_issueAll transport _ _ none _ state).bind fun flagged _ _ ↦ ?_
    exact (follows_issueAll transport _ _ none _ _).bind_nil fun listed _ _ ↦
      Follows.note _ (follows_done trivial)

section

variable {flag : Option RemoteCall} {call : RemoteCall} (hremoves : changes.listRemoves = ∅)

include hremoves

/-- The calls for an object that does not exist can create it, but for the one that sets the flag. -/
theorem canCreate_or_mem_flag
    (hcall : call ∈ (changeSchedule declaration identity ∅ changes flag).calls) :
    CanCreate declaration call ∨ call ∈ flag := by
  simp only [changeSchedule, Schedule.calls, List.mem_append, Option.mem_toList,
    afterPrimary_listRemoves, hremoves, phaseCalls_empty, List.not_mem_nil, or_false] at hcall
  rcases hcall with (hprimary | hflag) | hadds
  · obtain ⟨rfl, -⟩ := primaryCall_eq_some hprimary
    exact .inl (.inl rfl)
  · exact .inr hflag
  · exact .inl (.inr ((isPhase_phaseCalls _ _ _ _).lists call hadds))

theorem canCreate_of_head?
    (hflag : primaryCall declaration identity .add changes = none → flag = none)
    (hcall : (changeSchedule declaration identity ∅ changes flag).calls.head? = some call) :
    CanCreate declaration call := by
  rcases canCreate_or_mem_flag hremoves (List.mem_of_head? hcall) with hcreate | hmem
  · exact hcreate
  · -- A call for the flag comes first only if none creates the object.
    cases hprimary : primaryCall declaration identity .add changes with
    | none => cases (hflag hprimary).symm.trans hmem
    | some first =>
      obtain ⟨rfl, -⟩ := primaryCall_eq_some hprimary
      rw [changeSchedule, actionFor_empty, hprimary] at hcall
      obtain rfl := Option.some.inj hcall
      exact .inl rfl

end

theorem creates_add_eq_false_iff :
    creates declaration .add = false ↔ declaration.creation = .implicit := by
  cases hcreation : declaration.creation <;> simp [creates, hcreation]

/-- What a run posts that finds nothing. -/
theorem conclude_creates_first (transport : Transport σ) (schema : ObjectSchema)
    (hvalidate : validate schema.toDeclaration desired = .ok identity) (state : σ) :
    let posted := (Exchange.run transport
      (conclude schema.toDeclaration desired identity ∅) state).1.posted
    (∀ call ∈ posted, CanCreate schema.toDeclaration call ∨
      call ∈ forcedCall schema.toDeclaration identity desired.state) ∧
    (¬DisablesFirst schema.toDeclaration desired →
      ∀ call ∈ posted.head?, CanCreate schema.toDeclaration call) := by
  intro posted
  by_cases hstate : desired.state = .absent
  · have hnone : posted = [] := by
      simp only [posted, conclude, hstate]
      rfl
    rw [hnone]
    exact ⟨by simp, by simp⟩
  obtain ⟨changes, hplan, hremoves, hscalars⟩ := exists_plan_empty schema hvalidate hstate
  obtain ⟨flag, hflag, hunprimed, hfollows⟩ :=
    follows_apply_empty transport schema desired identity changes state
  have hposted : posted = (Exchange.run transport
      (apply schema.toDeclaration desired identity ∅ changes) state).1.posted := by
    simp only [posted, conclude_of_present hstate, hplan]
    rfl
  rw [hposted]
  constructor
  · intro call hcall
    refine (canCreate_or_mem_flag hremoves (hfollows.mem_calls hcall)).imp id fun hmem ↦ ?_
    rcases hflag with rfl | rfl
    · cases hmem
    · exact hmem
  · intro hcreate call hcall
    refine canCreate_of_head? hremoves (fun hprimary ↦ hunprimed hprimary fun hdisabled ↦ ?_)
      (hfollows.head?_eq hcall)
    obtain ⟨hunassigned, himplicit⟩ := primaryCall_eq_none_iff.1 hprimary
    exact hcreate ⟨creates_add_eq_false_iff.1 himplicit, hdisabled, hscalars.1 hunassigned⟩

/-- Where nothing creates the object before, a run starts to disable it. -/
theorem conclude_of_disablesFirst (transport : Transport σ) (schema : ObjectSchema)
    (hvalidate : validate schema.toDeclaration desired = .ok identity)
    (hdisables : DisablesFirst schema.toDeclaration desired) (hreal : desired.dryRun = false)
    (state : σ) :
    ∃ later, (Exchange.run transport
        (conclude schema.toDeclaration desired identity ∅) state).1.posted =
      .plain schema.methods.disable (schema.positional identity) :: later := by
  have hstate : desired.state ≠ .absent := by simp [hdisables.disabled]
  have hforced : desired.state.forcedEnable = some false := by rw [hdisables.disabled]; rfl
  obtain ⟨changes, hplan, -, hscalars⟩ := exists_plan_empty schema hvalidate hstate
  have hprimary : primaryCall schema.toDeclaration identity (actionFor (∅ : RemoteObject))
      changes = none := primaryCall_eq_none_iff.2
    ⟨hscalars.2 hdisables.unassigned, creates_add_eq_false_iff.2 hdisables.creation⟩
  obtain ⟨flag, henable⟩ := Option.isSome_iff_exists.1
    (isSome_enable_of_validate hvalidate (Option.isSome_of_eq_some hforced))
  have hdue := enableCall_empty schema identity desired.state
  rw [if_pos hdisables.disabled, forcedCall, forcedFlag_eq_some_iff.2 ⟨hforced, henable⟩] at hdue
  rw [conclude_of_present hstate, hplan]
  simp only [Exchange.ofExcept, Exchange.bind, Exchange.run]
  rw [apply_of_no_primary hprimary hdue, hreal]
  exact posted_issueAll_cons _ _ _ _ _ _ _

/-- A run that finds nothing posts calls that can create the object and the one that sets its flag,
and no other. The first of them can create it, unless the object comes into being with its first
list value, is to be disabled and has no scalar to assign: then it is disabled before anything
else. -/
theorem ensure_creates_first (schema : ObjectSchema)
    (hvalidate : validate schema.toDeclaration desired = .ok identity)
    (hfound : (Exchange.run transport (schema.find identity) state).1.result = .ok found)
    (hnothing : found.isEmpty = true) :
    ∃ rest, (Exchange.run transport (run schema.toDeclaration desired) state).1.posted =
        schema.findCall identity :: rest ∧
      (∀ call ∈ rest, CanCreate schema.toDeclaration call ∨
        call ∈ forcedCall schema.toDeclaration identity desired.state) ∧
      (¬DisablesFirst schema.toDeclaration desired →
        ∀ call ∈ rest.head?, CanCreate schema.toDeclaration call) ∧
      (DisablesFirst schema.toDeclaration desired → desired.dryRun = false →
        ∃ later, rest = .plain schema.methods.disable (schema.positional identity) :: later) := by
  obtain rfl := (Dict.isEmpty_iff _).1 hnothing
  rcases run_after_search transport schema.toDeclaration desired hvalidate state with
    ⟨failure, hfailure, -⟩ | ⟨other, hother, hposted, -⟩
  · cases hfailure.symm.trans hfound
  cases hother.symm.trans hfound
  obtain ⟨hcalls, hfirst⟩ := conclude_creates_first transport schema hvalidate
    (Exchange.run transport (schema.find identity) state).2
  exact ⟨_, hposted, hcalls, hfirst, fun hdisables hreal ↦
    conclude_of_disablesFirst transport schema hvalidate hdisables hreal _⟩

def subscribers : AttributeSpec :=
  (AttributeSpec.list "subscriber").routed "maillist_subscribe" "maillist_unsubscribe" "user"

/-- Mailing lists, which come into being with their first subscriber. -/
def mailList : ObjectSchema where
  toDeclaration := { Declaration.ofName "maillist" with
    attributes := [AttributeSpec.identityKey "cn",
      { AttributeSpec.scalar "open" with kind := .bool }, subscribers]
    enable := some ⟨"open", false⟩
    creation := .implicit }
  accepted := by decide +kernel

/-- A mailing list that is to be closed, with one subscriber. -/
def closedList : DesiredState :=
  { DesiredState.ofState .disabled false with
    identity := .ofList [("cn", .scalar (.str "staff"))]
    attributes := .ofList [("subscriber", .list [.str "bob"])] }

theorem disablesFirst_closedList : DisablesFirst mailList.toDeclaration closedList := by
  refine ⟨rfl, rfl, ?_⟩
  rintro name v ⟨spec, raw, hspec, -, hraw, hvalue⟩
  have hentries : closedList.attributes.entries = [("subscriber", .list [.str "bob"])] := by
    decide +kernel
  have hmem := closedList.attributes.mem_entries_iff.2 hraw
  rw [hentries, List.mem_singleton] at hmem
  obtain ⟨rfl, rfl⟩ := Prod.mk.inj hmem
  obtain rfl : subscribers = spec := Option.some.inj (Eq.trans rfl hspec)
  have hlist : subscribers.normalize (AttrValue.list [.str "bob"]).toJson =
      .ok (.list [.str "bob"]) := by decide +kernel
  cases hlist.symm.trans hvalue

/-- The mailing list is disabled before its first subscriber creates it. -/
theorem ensure_creates_first_closedList :
    let posted := (Exchange.run Transport.scripted (run mailList.toDeclaration closedList) []).1.posted
    validate mailList.toDeclaration closedList = .ok closedList.identity ∧
      (Exchange.run Transport.scripted (mailList.find closedList.identity) []).1.result = .ok ∅ ∧
      posted.map (·.method) = ["maillist_find", "maillist_disable", "maillist_subscribe"] ∧
      ∃ later, posted = mailList.findCall closedList.identity ::
        .plain "maillist_disable" [.str "staff"] :: later := by
  intro posted
  have hvalidate : validate mailList.toDeclaration closedList = .ok closedList.identity := by
    decide +kernel
  have hfound : (Exchange.run Transport.scripted (mailList.find closedList.identity)
      []).1.result = .ok ∅ := by decide +kernel
  obtain ⟨rest, hposted, -, -, hdisables⟩ := ensure_creates_first mailList hvalidate hfound rfl
  obtain ⟨later, rfl⟩ := hdisables disablesFirst_closedList rfl
  have hkey : mailList.positional closedList.identity = [.str "staff"] := by decide +kernel
  rw [hkey] at hposted
  exact ⟨hvalidate, hfound, by decide +kernel, later, hposted⟩

end Ensure

end DirectoryReconcile
