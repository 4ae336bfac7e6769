import DirectoryReconcile.Proofs.Directory.Course
import DirectoryReconcile.Proofs.Ensure.Progress

/-!
# Runs of requests

A run searches for its object and then posts the calls that are due, in order, until one of them
fails. The calls that are left when it ends are those due for what the object has become.
-/

namespace DirectoryReconcile

namespace Ensure

open Declaration Entry Operation Directory

variable {declaration : Declaration} {desired : DesiredState} {identity : Identity}
  {texts : List String} {allowed : String → Scalar → Prop} {changes : ChangeSet} {call : RemoteCall}
  {entries after : List Entry} {result : Json} {calls posted : List RemoteCall}
  {faults : Dict InjectedFault} {failure? : Option Failure}

/-- The entries of a type are told apart, and the one with an identity, if there is one, is sound. -/
structure Orderly (declaration : Declaration) (allowed : String → Scalar → Prop)
    (texts : List String) (entries : List Entry) : Prop where
  distinct : Distinct entries
  sound : ∀ entry ∈ focus texts entries, entry.Sound declaration allowed

/-- A call about an object that is carried out on all entries is carried out on the object. -/
theorem Orderly.perform (regular : declaration.Regular)
    (horderly : Orderly declaration allowed texts entries)
    (hconcerns : Concerns declaration texts allowed call) {operation : Operation}
    (hoperation : ofMethod? declaration call.method call.arguments = some operation)
    (hperform : operation.perform declaration entries call.arguments = .ok (result, after)) :
    Orderly declaration allowed texts after ∧
      Answers declaration (focus texts entries) call result (focus texts after) := by
  obtain ⟨other, hother, hfind, hidentity, hwrites⟩ := hconcerns
  cases hoperation.symm.trans hother
  have hid : identityOf declaration call.arguments.positional = .ok texts := hidentity
  rw [perform_focus hfind hid] at hperform
  obtain ⟨done, hdone, hback⟩ := map_eq_ok.1 hperform
  obtain ⟨rfl, rfl⟩ := Prod.mk.inj hback
  obtain ⟨hnamed, hsound⟩ := perform_sound regular hfind hid hwrites (namedBy_focus texts entries)
    horderly.sound hdone
  have hfocus : focus texts (put texts done.2.head? entries) = done.2.head? :=
    focus_put_self horderly.distinct hnamed
  refine ⟨⟨distinct_put horderly.distinct hnamed, by rwa [hfocus]⟩, ?_⟩
  rw [hfocus]
  exact ⟨operation, done.2, hoperation, hdone, rfl⟩

theorem Orderly.carryOut (regular : declaration.Regular)
    (horderly : Orderly declaration allowed texts entries)
    (hconcerns : Concerns declaration texts allowed call)
    (hcarried : carryOut? declaration entries call = some after) :
    Orderly declaration allowed texts after ∧
      ∃ result, Answers declaration (focus texts entries) call result (focus texts after) := by
  unfold carryOut? at hcarried
  obtain ⟨operation, hoperation, h⟩ := Option.bind_eq_some_iff.1 hcarried
  cases hperform : operation.perform declaration entries call.arguments with
  | error refusal => simp [hperform, Except.toOption] at h
  | ok done =>
    obtain rfl : done.2 = after := by simpa [hperform, Except.toOption] using h
    obtain ⟨horderly', hanswers⟩ := horderly.perform regular hconcerns hoperation hperform
    exact ⟨horderly', done.1, hanswers⟩

section

variable (regular : declaration.Regular) (idle : declaration.Idle)
  (valid : Valid declaration desired identity texts)
  (hallowed : ∀ spec scalars, Asks declaration desired spec scalars → spec.isList = true →
    ∀ v ∈ scalars, allowed spec.name v)

include regular valid

theorem concerns_flagCall (idle : declaration.Idle) {held : Option Entry}
    (hheld : ∀ entry ∈ held, entry.Sound declaration allowed)
    (h : flagCall declaration identity desired.state held = some call) :
    Concerns declaration texts allowed call := by
  have henabled := (shows_shown regular hheld idle (valid.spells.covers regular)).isEnabled_eq regular
  exact concerns_enableCall regular valid ((enableCall_eq henabled).trans (congrArg Except.ok h))

include idle hallowed

/-- Every call that is due is one operation on the object. -/
theorem Due.concerns {held : Option Entry} (hheld : ∀ entry ∈ held, entry.Sound declaration allowed)
    (hdue : Due declaration desired identity held calls) :
    ∀ call ∈ calls, Concerns declaration texts allowed call := by
  intro call hcall
  cases hdue with
  | gone hstate => simp at hcall
  | whole hstate hlists =>
    rw [List.mem_singleton.1 hcall]
    exact concerns_removeCall regular valid
  | @changes _ changes hstate hwritable hplanned =>
    have hcomes := hplanned.comes regular valid
    rw [callsOf, List.mem_append, List.mem_append, Option.mem_toList, Option.mem_toList] at hcall
    rcases hcall with hcall | hcall | hcall
    · exact concerns_primaryCall regular valid hcomes hallowed hcall
    · exact concerns_flagCall regular valid idle hheld hcall
    · exact concerns_listCalls regular valid (comes_afterPrimary hcomes) hallowed hcall

variable (hdistinct : Distinguishes allowed)

include hdistinct

/-- The first call that is due is carried out on the object. -/
theorem Due.step (horderly : Orderly declaration allowed texts entries)
    (hdue : Due declaration desired identity (focus texts entries) (call :: calls))
    (hcarried : carryOut? declaration entries call = some after) :
    Orderly declaration allowed texts after ∧
      Due declaration desired identity (focus texts after) calls ∧
        ∃ result, Answers declaration (focus texts entries) call result (focus texts after) := by
  have hconcerns := hdue.concerns regular idle valid hallowed horderly.sound call List.mem_cons_self
  obtain ⟨horderly', result, hanswers⟩ := horderly.carryOut regular hconcerns hcarried
  exact ⟨horderly', hdue.tail regular valid hallowed hdistinct (namedBy_focus texts entries)
    horderly.sound horderly'.sound hanswers, result, hanswers⟩

/-- What is due after a part of a run is what the run did not get to. -/
theorem Due.after_course (horderly : Orderly declaration allowed texts entries)
    (hdue : Due declaration desired identity (focus texts entries) calls)
    (hcourse : Course declaration faults entries calls posted failure? after) :
    Orderly declaration allowed texts after ∧
      ∃ rest, Due declaration desired identity (focus texts after) rest ∧
        (failure? = none → rest = []) ∧
          ∀ final, Course declaration ∅ entries calls calls none final →
            Course declaration ∅ after rest rest none final := by
  induction hcourse with
  | done => exact ⟨horderly, [], hdue, fun _ ↦ rfl, fun _ hfinal ↦ hfinal⟩
  | @refused entries call rest failure h =>
    exact ⟨horderly, call :: rest, hdue, by simp, fun _ hfinal ↦ hfinal⟩
  | @step entries middle after call rest posted failure? hfault hcarried hrest ih =>
    obtain ⟨horderly', hdue', -⟩ := hdue.step regular idle valid hallowed hdistinct horderly hcarried
    obtain ⟨hleft, rest', hduerest, hnone, hfinal⟩ := ih horderly' hdue'
    refine ⟨hleft, rest', hduerest, hnone, fun final hwhole ↦ hfinal final ?_⟩
    cases hwhole with
    | step _ hcarried' hrest' =>
      cases hcarried.symm.trans hcarried'
      exact hrest'

end

/-! ## What a run does with an object that it found -/

/-- What follows the search of a run. -/
def conclude (declaration : Declaration) (desired : DesiredState) (identity : Identity)
    (found : RemoteObject) : Exchange Outcome :=
  if desired.state = .absent && found.isEmpty then finish declaration desired.dryRun [] ∅
  else if desired.state = .absent && !desired.hasLists declaration then
    (issue declaration desired.dryRun (removeCall declaration identity)).bind fun _ ↦
      finish declaration desired.dryRun [removeCall declaration identity] ∅
  else
    (Exchange.ofExcept (plan declaration desired found)).bind fun changes ↦
      .note ⟨.plan, none, planDetail (actionFor found) changes⟩
        (apply declaration desired identity found changes)

/-- What follows the search of a run that does not remove the object. -/
theorem conclude_of_present (hstate : desired.state ≠ .absent) (found : RemoteObject) :
    conclude declaration desired identity found =
      (Exchange.ofExcept (plan declaration desired found)).bind fun changes ↦
        .note ⟨.plan, none, planDetail (actionFor found) changes⟩
          (apply declaration desired identity found changes) := by
  simp [conclude, hstate]

theorem run_eq (hvalidate : validate declaration desired = .ok identity) :
    run declaration desired = .note ⟨.validate, none, "state=" ++ desired.state.name⟩
      ((declaration.find identity).bind fun found ↦
        .note ⟨.find, some declaration.methods.find, if found.isEmpty then "not found" else "found"⟩
          (conclude declaration desired identity found)) := by
  unfold run
  rw [hvalidate]
  rfl

/-! ## What the service reports of a call -/

/-- The object that a result describes. -/
theorem object_of_result {described : Json} (declaration : Declaration) (identity : Identity)
    (h : result.get? "result" = some described) :
    Response.object declaration (fun _ ↦ true) identity (resultBody result) =
      Response.present declaration identity (Response.select (fun _ ↦ true) described) := by
  unfold Response.object
  rw [Response.result_resultBody, h]
  rfl

theorem get?_report (declaration : Declaration) (verb : String) (described value : Json)
    (texts : List String) :
    (report declaration verb described value texts).get? "result" = some described := by
  unfold report
  rw [Json.get?_ofFields (by simp)]
  simp [Dict.lookupEntry]

theorem get?_listReport (declaration : Declaration) (completed : Nat) (entry : Entry) :
    (listReport declaration completed entry).get? "result" = some (entry.render declaration) := by
  unfold listReport
  rw [Json.get?_ofFields (by simp)]
  simp [Dict.lookupEntry]

/-- What is reported of an object that was created or changed. -/
theorem object_report (declaration : Declaration) (identity : Identity) (entry : Entry)
    (verb : String) (value : Json) (texts : List String) :
    Response.object declaration (fun _ ↦ true) identity
        (resultBody (report declaration verb (entry.render declaration) value texts)) =
      shown declaration identity (some entry) :=
  object_of_result declaration identity (get?_report declaration verb _ value texts)

variable {schema : ObjectSchema} {directory : Directory} {held : Option Entry}

theorem isSome_ofMethod?_of_concerns (h : Concerns declaration texts allowed call) :
    (ofMethod? declaration call.method call.arguments).isSome := by
  obtain ⟨operation, hoperation, -⟩ := h
  rw [hoperation]
  rfl

/-- The calls for the changes of an object take their course, if the first one leaves the decision
about the flag as it was. -/
theorem takes_apply {found : RemoteObject} (hschema : schema ∈ ObjectSchema.builtins)
    (hregistry : directory.registry = .builtin) (hdry : desired.dryRun = false)
    (haction : actionFor found = actionOn held)
    (hprimary : Takes schema directory entries
      (primaryCall schema.toDeclaration identity (actionOn held) changes).toList
      (fun created ↦ enableCall schema.toDeclaration identity desired.state (created.getD found) =
        .ok (flagCall schema.toDeclaration identity desired.state held))
      (Exchange.run transport (issueAll schema.toDeclaration false none
        (primaryCall schema.toDeclaration identity (actionOn held) changes).toList) directory))
    (hcalls : ∀ call ∈ callsOf schema.toDeclaration desired identity held changes,
      Concerns schema.toDeclaration texts allowed call) :
    Takes schema directory entries (callsOf schema.toDeclaration desired identity held changes)
      (fun outcome ↦ outcome.changed =
        !(callsOf schema.toDeclaration desired identity held changes).isEmpty)
      (Exchange.run transport (apply schema.toDeclaration desired identity found changes)
        directory) := by
  simp only [callsOf, List.mem_append] at hcalls
  unfold apply
  rw [haction, hdry]
  apply hprimary.bind hregistry
  intro created henabling next middle hregistry' hentries'
  simp only [henabling, Exchange.ofExcept, Exchange.bind_eq, Exchange.bind]
  have hflag := takes_issueAll hschema hregistry' hentries' (fun call hcall ↦
    isSome_ofMethod?_of_concerns (hcalls call (.inr (.inl hcall)))) none
  apply hflag.bind hregistry'
  intro flagged _ next middle hregistry' hentries'
  have hlists := takes_issueAll hschema hregistry' hentries' (fun call hcall ↦
    isSome_ofMethod?_of_concerns (hcalls call (.inr (.inr hcall)))) none
  apply hlists.bind_nil hregistry'
  intro listed _ next middle hregistry' hentries'
  refine .note _ (.done hentries' ?_)
  unfold callsOf
  rw [List.append_assoc]

section

variable (hschema : schema ∈ ObjectSchema.builtins) (hservice : schema.name ≠ ObjectSchema.service.name)
  (valid : Valid schema.toDeclaration desired identity texts)
  (hallowed : ∀ spec scalars, Asks schema.toDeclaration desired spec scalars → spec.isList = true →
    ∀ v ∈ scalars, allowed spec.name v)
  (hregistry : directory.registry = .builtin)
  (hentries : directory.objects.get? schema.name = some entries)
  (horderly : Orderly schema.toDeclaration allowed texts entries)
  (hheld : focus texts entries = held)

include hschema hservice valid hallowed hregistry hentries horderly hheld

/-- The first call reports an object with the flag as it was. -/
theorem takes_primary
    (hplanned : Planned schema.toDeclaration desired (actionOn held) held changes) :
    Takes schema directory entries
      (primaryCall schema.toDeclaration identity (actionOn held) changes).toList
      (fun created ↦ enableCall schema.toDeclaration identity desired.state
          (created.getD (shown schema.toDeclaration identity held)) =
        .ok (flagCall schema.toDeclaration identity desired.state held))
      (Exchange.run transport (issueAll schema.toDeclaration false none
        (primaryCall schema.toDeclaration identity (actionOn held) changes).toList) directory) := by
  have hregular := ObjectSchema.regular_of_mem_builtins hschema
  have hidle := ObjectSchema.idle_of_mem_builtins hschema hservice
  have hcomes := hplanned.comes hregular valid
  subst hheld
  cases hprimary : primaryCall schema.toDeclaration identity (actionOn (focus texts entries))
      changes with
  | none =>
    have hshows := shows_shown hregular horderly.sound hidle (valid.spells.covers hregular)
    exact .done hentries (enableCall_eq (hshows.isEnabled_eq hregular))
  | some call =>
    have hconcerns : Concerns schema.toDeclaration texts allowed call :=
      concerns_primaryCall hregular valid hcomes hallowed hprimary
    have hissue : Takes schema directory entries [call]
        (fun reported ↦ ∃ object, reported = some object ∧ schema.toDeclaration.isEnabled object =
          .ok (enabledIn schema.toDeclaration (focus texts entries)))
        (Exchange.run transport (issue schema.toDeclaration false call) directory) := by
      refine takes_issue hschema hregistry hentries (isSome_ofMethod?_of_concerns hconcerns) ?_
      intro operation result after hoperation hperform
      refine ⟨_, rfl, ?_⟩
      obtain ⟨horderly', hanswers⟩ := horderly.perform hregular hconcerns hoperation hperform
      obtain ⟨-, entry, verb, hentry, rfl, hstock⟩ := stock_primaryCall hregular valid.spells hcomes
        (namedBy_focus texts entries) hprimary hanswers
      rw [object_report, (shows_shown hregular (hentry ▸ horderly'.sound) hidle
        (covers_identityOfCall _ call)).isEnabled_eq hregular]
      refine congrArg Except.ok (enabledIn_congr hregular fun spec hspec hflag ↦ ?_)
      rw [← hentry]
      exact flag_after_primary hregular hplanned hstock hspec hflag
    apply hissue.bind_nil hregistry
    intro reported hreported next middle _ hmiddle
    obtain ⟨object, rfl, henabled⟩ := hreported
    exact .done hmiddle (enableCall_eq henabled)

/-- The calls that are due for an object as it was found take their course. -/
theorem takes_conclude (hdry : desired.dryRun = false)
    (hdue : Due schema.toDeclaration desired identity held calls) :
    Takes schema directory entries calls (fun outcome ↦ outcome.changed = !calls.isEmpty)
      (Exchange.run transport (conclude schema.toDeclaration desired identity
        (shown schema.toDeclaration identity held)) directory) := by
  have hregular := ObjectSchema.regular_of_mem_builtins hschema
  have hidle := ObjectSchema.idle_of_mem_builtins hschema hservice
  have hcovers := valid.spells.covers hregular
  have hsound : ∀ entry ∈ held, entry.Sound schema.toDeclaration allowed := hheld ▸ horderly.sound
  have hconcerns := hdue.concerns hregular hidle valid hallowed hsound
  have hshows := shows_shown hregular hsound hidle hcovers
  unfold conclude
  rw [hshows.isEmpty_eq hregular hsound, hdry]
  cases hdue with
  | gone hstate =>
    rw [if_pos (by simp [hstate])]
    exact .note _ (.done hentries rfl)
  | whole hstate hlists =>
    rw [if_neg (by simp), if_pos (by simp [hstate, hlists])]
    have hissue : Takes schema directory entries [removeCall schema.toDeclaration identity]
        (fun _ ↦ True) (Exchange.run transport (issue schema.toDeclaration false
          (removeCall schema.toDeclaration identity)) directory) :=
      takes_issue hschema hregistry hentries
        (isSome_ofMethod?_of_concerns (hconcerns _ List.mem_cons_self)) fun _ _ _ _ _ ↦ trivial
    apply hissue.bind_nil hregistry
    intro _ _ next middle _ hmiddle
    exact .note _ (.done hmiddle rfl)
  | @changes _ changes hstate hwritable hplanned =>
    have hplan := (hshows.plan_iff hregular valid hsound).2 ⟨hwritable, hplanned⟩
    rw [if_neg, if_neg, hplan]
    · have hprimary := takes_primary hschema hservice valid hallowed hregistry hentries horderly
        hheld hplanned
      exact .note _ (takes_apply hschema hregistry hdry (hshows.actionFor_eq hregular hsound)
        hprimary hconcerns)
    · simp only [Bool.and_eq_true, decide_eq_true_eq, Bool.not_eq_true', not_and,
        Bool.not_eq_false]
      exact fun habsent ↦ (hstate habsent).2
    · simp only [Bool.and_eq_true, decide_eq_true_eq, not_and, Bool.not_eq_true,
        Option.isNone_eq_false_iff]
      exact fun habsent ↦ (hstate habsent).1

omit hallowed hregistry hentries in
/-- A request that cannot be met fails once its object was found. -/
theorem conclude_of_not_due
    (h : ∀ calls, ¬Due schema.toDeclaration desired identity held calls) :
    ∃ failure, conclude schema.toDeclaration desired identity
      (shown schema.toDeclaration identity held) = .fail failure := by
  have hregular := ObjectSchema.regular_of_mem_builtins hschema
  have hidle := ObjectSchema.idle_of_mem_builtins hschema hservice
  have hcovers := valid.spells.covers hregular
  have hsound : ∀ entry ∈ held, entry.Sound schema.toDeclaration allowed := hheld ▸ horderly.sound
  have hfound : desired.state = .absent → held.isSome := fun habsent ↦ by
    cases held with
    | none => exact absurd (.gone habsent) (h [])
    | some entry => rfl
  have hlists : desired.state = .absent → desired.hasLists schema.toDeclaration = true :=
    fun habsent ↦ by
      obtain ⟨entry, rfl⟩ := Option.isSome_iff_exists.1 (hfound habsent)
      by_contra hnone
      exact h _ (.whole habsent (by simpa using hnone))
  have hshows := shows_shown hregular hsound hidle hcovers
  unfold conclude
  rw [hshows.isEmpty_eq hregular hsound, if_neg, if_neg]
  · cases hplan : plan schema.toDeclaration desired (shown schema.toDeclaration identity held) with
    | error failure => exact ⟨failure, rfl⟩
    | ok changes =>
      obtain ⟨hwritable, hplanned⟩ := (hshows.plan_iff hregular valid hsound).1 hplan
      exact absurd (.changes (fun habsent ↦ ⟨hfound habsent, hlists habsent⟩) hwritable hplanned) (h _)
  · simpa using hlists
  · simpa [Option.isSome_iff_ne_none] using hfound

end

end Ensure

end DirectoryReconcile
