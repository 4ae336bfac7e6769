import DirectoryReconcile.Proofs.Directory.Alone
import DirectoryReconcile.Proofs.Ensure.Aliases
import DirectoryReconcile.Proofs.Ensure.Runs

/-!
# What a run reports

A run reports the object as it was found, or what the last reply says of it, or, when that reply does
not describe the object, what was known of it with the flag set. In each case this is the object as it
is stored afterwards. The one exception is an object that is removed with its last list values: the
reply to that is an object with a field of its own.
-/

namespace DirectoryReconcile

namespace Ensure

open Declaration Entry Operation Directory Exchange

section

variable {declaration : Declaration} {texts : List String} {allowed : String → Scalar → Prop}
  {call : RemoteCall} {held held' : Option Entry} {result : Json} {faults : Dict InjectedFault}

/-- An object, if there is one, has this identity and is sound. -/
structure Intact (declaration : Declaration) (allowed : String → Scalar → Prop) (texts : List String)
    (held : Option Entry) : Prop where
  named : NamedBy texts held
  sound : ∀ entry ∈ held, entry.Sound declaration allowed

theorem Intact.answers (regular : declaration.Regular)
    (intact : Intact declaration allowed texts held)
    (hconcerns : Concerns declaration texts allowed call)
    (h : Answers declaration held call result held') : Intact declaration allowed texts held' := by
  obtain ⟨operation, hoperation, hfind, hid, hwrites⟩ := hconcerns
  obtain ⟨other, entries, hother, hperform, rfl⟩ := h
  cases hoperation.symm.trans hother
  obtain ⟨hnamed, hsound⟩ :=
    perform_sound regular hfind hid hwrites intact.named intact.sound hperform
  exact ⟨hnamed, hsound⟩

/-! ## Single calls -/

/-- Where there is no other object, a call about it is carried out on it or fails. -/
theorem alone_cases (faults : Dict InjectedFault) (held : Option Entry)
    (hoperation : (ofMethod? declaration call.method call.arguments).isSome) :
    (∃ result held', Answers declaration held call result held' ∧
      alone faults declaration held call.method call.params = (.ok (resultBody result), held')) ∨
    Fails call.method (alone faults declaration held call.method call.params).1 := by
  obtain ⟨operation, hoperation⟩ := Option.isSome_iff_exists.1 hoperation
  rw [alone_eq faults held hoperation]
  cases faults.get? call.method with
  | some fault =>
    cases fault with
    | transport message => exact .inr (by rintro body ⟨⟩)
    | fault code message => exact .inr (by rintro body ⟨⟩; exact Response.fault?_refusalBody _ _)
  | none =>
    cases hdone : operation.perform declaration held.toList call.arguments with
    | ok done => exact .inl ⟨done.1, done.2.head?, ⟨operation, done.2, hoperation, hdone, rfl⟩, rfl⟩
    | error refusal => exact .inr (by rintro body ⟨⟩; exact Response.fault?_refusalBody _ _)

theorem yields_exchange (hoperation : (ofMethod? declaration call.method call.arguments).isSome)
    {keep : Json → Bool} {own : Identity} {good : RemoteObject → Option Entry → Prop}
    (hgood : ∀ result held', Answers declaration held call result held' →
      good (Response.object declaration keep own (resultBody result)) held') :
    Yields (alone faults declaration) (declaration.exchange call keep own) held good := by
  unfold Yields
  rw [run_exchange]
  rcases alone_cases faults held hoperation with ⟨result, held', hanswers, halone⟩ | hfails
  · simp only [halone, answer, Response.fault?_resultBody]
    rintro _ ⟨⟩
    exact hgood result held' hanswers
  · cases hreply : (alone faults declaration held call.method call.params).1 with
    | error error => rintro _ ⟨⟩
    | ok body =>
      obtain ⟨error, herror⟩ := Option.isSome_iff_exists.1 (hfails body hreply)
      simp only [answer, herror]
      rintro _ ⟨⟩

theorem yields_issue (hconcerns : Concerns declaration texts allowed call)
    {good : Option RemoteObject → Option Entry → Prop}
    (hgood : ∀ result held', Answers declaration held call result held' →
      good (some (Response.object declaration (fun _ ↦ true) (declaration.identityOfCall call)
        (resultBody result))) held') :
    Yields (alone faults declaration) (issue declaration false call) held good :=
  .note _ ((yields_exchange (isSome_ofMethod?_of_concerns hconcerns) hgood).bind fun _ _ h ↦ .done h)

/-- Changes whose replies describe the object that they leave. -/
def Describes : Operation → Prop
  | .modify | .listAdd _ | .listRemove _ => True
  | .find | .add | .remove | .setEnabled _ => False

/-- The calls of list methods change the object or its lists. -/
theorem describes_listCalls (regular : declaration.Regular) {identity : Identity}
    (spells : declaration.Spells identity texts) {changes : ChangeSet}
    (hcall : call ∈ listCalls declaration identity changes) :
    ∃ operation, ofMethod? declaration call.method call.arguments = some operation ∧
      Describes operation := by
  have hphase (adding : Bool) {lists : Dict (List Scalar)}
      (hcall : call ∈ phaseCalls declaration identity adding lists) :
      ∃ operation, ofMethod? declaration call.method call.arguments = some operation ∧
        Describes operation := by
    rw [phaseCalls_eq, Dict.mem_values_iff] at hcall
    obtain ⟨method, hcall⟩ := hcall
    obtain ⟨-, ⟨-, -, hoperation⟩ | ⟨-, -, hoperation⟩⟩ := phase_cases regular spells hcall
    · exact ⟨_, hoperation, trivial⟩
    · exact ⟨_, hoperation, by cases adding <;> trivial⟩
  rcases List.mem_append.1 hcall with hcall | hcall
  · exact hphase true hcall
  · exact hphase false hcall

end

/-- The reply to the removal of list values that took the object with them. -/
def tombstone : RemoteObject := .ofList [("failed", .arr [])]

/-- What the reply to a change says of the object that it leaves. -/
def told (declaration : Declaration) (identity : Identity) (held : Option Entry) : RemoteObject :=
  if held.isSome then shown declaration identity held else tombstone

/-- What a successful run reports of the object that it leaves. -/
inductive Reports (declaration : Declaration) (desired : DesiredState) (identity : Identity)
    (outcome : Outcome) : Option Entry → Prop
  | stored {held : Option Entry} (hobject : outcome.object = shown declaration identity held)
      (hgone : held = none →
        outcome.calls = [] ∨ desired.state = .absent ∧ desired.hasLists declaration = false)
      (hwhole : desired.state = .absent → desired.hasLists declaration = false → held = none) :
    Reports declaration desired identity outcome held
  /-- Only an object that its first list values created is removed with the last ones. -/
  | emptied (himplicit : declaration.creation = .implicit) (hobject : outcome.object = tombstone)
      (hcalls : outcome.calls ≠ [])
      (hlists : desired.state = .absent → desired.hasLists declaration = true) :
    Reports declaration desired identity outcome none

variable {schema : ObjectSchema} (hschema : schema ∈ ObjectSchema.builtins) {desired : DesiredState}
  {identity : Identity} {texts : List String} {allowed : String → Scalar → Prop}
  {changes : ChangeSet} {held held' : Option Entry} {result : Json} {faults : Dict InjectedFault}

include hschema

theorem shown_none (covers : schema.toDeclaration.Covers identity) :
    shown schema.toDeclaration identity none = ∅ := by
  have hnone : ∀ entry ∈ (none : Option Entry),
      entry.Sound schema.toDeclaration fun _ _ ↦ True := by simp
  exact (Dict.isEmpty_iff _).1 (isEmpty_shown hschema hnone covers)

theorem object_deletion (himplicit : schema.creation = .implicit) :
    Response.object schema.toDeclaration (fun _ ↦ true) identity
      (resultBody (deletion schema.toDeclaration texts)) = tombstone := by
  unfold deletion
  rw [object_of_result _ _ (get?_report _ _ _ _ _)]
  obtain rfl := ObjectSchema.eq_dnsrecord_of_implicit hschema himplicit
  rfl

/-- The reply to a call that sets the flag has no object. -/
theorem object_flagged (verb : String) (value : Json) (texts : List String)
    (covers : schema.toDeclaration.Covers identity) :
    Response.object schema.toDeclaration (fun _ ↦ true) identity
      (resultBody (report schema.toDeclaration verb (.bool true) value texts)) = ∅ := by
  rw [object_of_result _ _ (get?_report _ _ _ _ _)]
  exact shown_none hschema covers

/-- The reply to a change describes the object that it leaves. -/
theorem object_of_describes {operation : Operation} (hdescribes : Describes operation)
    {arguments : Arguments} {own : Identity}
    (h : Leaves schema.toDeclaration texts arguments operation held result held') :
    Response.object schema.toDeclaration (fun _ ↦ true) own (resultBody result) =
        told schema.toDeclaration own held' ∧
      (schema.creation = .explicit → held'.isSome) := by
  cases h with
  | created | removed | flagged => exact hdescribes.elim
  | changed => exact ⟨object_report _ _ _ _ _ _, fun _ ↦ rfl⟩
  | begun | extended | reduced =>
    exact ⟨object_of_result _ _ (get?_listReport _ _ _), fun _ ↦ rfl⟩
  | emptied hdropped hemptied =>
    have himplicit := implicit_of_isEmptied hemptied
    exact ⟨object_deletion hschema himplicit, fun hexplicit ↦ by simp [himplicit] at hexplicit⟩

/-- What is told of an object does not depend on the identity that it is asked for by. -/
theorem told_congr {own : Identity} (hheld : ∀ entry ∈ held, entry.Sound schema.toDeclaration allowed)
    (covers : schema.toDeclaration.Covers identity) (covers' : schema.toDeclaration.Covers own) :
    told schema.toDeclaration own held = told schema.toDeclaration identity held := by
  unfold told
  rw [shown_congr hschema hheld covers' covers]

/-! ## The phases of a run -/

variable (valid : Valid schema.toDeclaration desired identity texts)

include valid

/-- The first call reports the object as it leaves it. -/
theorem yields_primary (hcomes : Comes schema.toDeclaration desired changes)
    (hallowed : ∀ spec scalars, Asks schema.toDeclaration desired spec scalars → spec.isList = true →
      ∀ v ∈ scalars, allowed spec.name v)
    (intact : Intact schema.toDeclaration allowed texts held) (action : Action) :
    let primary := primaryCall schema.toDeclaration identity action changes
    Yields (alone faults schema.toDeclaration)
      (issueAll schema.toDeclaration false none primary.toList) held fun created held' ↦
        Intact schema.toDeclaration allowed texts held' ∧
          created.getD (shown schema.toDeclaration identity held) =
            shown schema.toDeclaration identity held' ∧
          (held' = none → held = none ∧ primary = none) := by
  have hregular := ObjectSchema.regular_of_mem_builtins hschema
  intro primary
  cases hprimary : primary with
  | none => exact .done ⟨intact, rfl, fun hnone ↦ ⟨hnone, rfl⟩⟩
  | some call =>
    have hconcerns := concerns_primaryCall hregular valid hcomes hallowed hprimary
    refine (yields_issue hconcerns fun result held' hanswers ↦ ?_).bind fun reported next hgood ↦
      .done hgood
    have hintact := intact.answers hregular hconcerns hanswers
    obtain ⟨-, entry, verb, rfl, rfl, -⟩ :=
      stock_primaryCall hregular valid.spells hcomes intact.named hprimary hanswers
    refine ⟨hintact, ?_, by simp⟩
    rw [object_report]
    exact shown_congr hschema hintact.sound (covers_identityOfCall _ call)
      (valid.spells.covers hregular)

omit valid in
/-- An object that can be disabled shows its flag, and what else it stores. -/
theorem shown_withFlag {flag : EnableSpec} (henable : schema.enable = some flag) (enabled : Bool)
    {found : Entry}
    (hfound : ∀ entry ∈ some found, entry.Sound schema.toDeclaration allowed)
    (hflagged : ∀ entry ∈ some { found with
        attrs := Operation.withFlag schema.toDeclaration flag enabled found.attrs },
      entry.Sound schema.toDeclaration allowed)
    (covers : schema.toDeclaration.Covers identity) :
    shown schema.toDeclaration identity (some { found with
        attrs := Operation.withFlag schema.toDeclaration flag enabled found.attrs }) =
      (shown schema.toDeclaration identity (some found)).insert flag.attr
        (.bool (flag.storedValue enabled)) := by
  have hregular := ObjectSchema.regular_of_mem_builtins hschema
  have hidle := ObjectSchema.idle_of_enable hschema (by rw [henable]; rfl)
  obtain ⟨own, hown, hname, hscalar, -, -, hencoding, -⟩ := hregular.flag_declared flag henable
  have hattribute : schema.toDeclaration.attribute? flag.attr = some own :=
    hregular.attribute?_eq_some_iff.2 ⟨hown, hname⟩
  have hkey : own.responseKey = flag.attr := by
    rw [← flagKey_eq hattribute]
    exact (by decide +kernel : ∀ s ∈ ObjectSchema.builtins, ∀ flag ∈ s.enable,
      flagKey s.toDeclaration flag = flag.attr) schema hschema flag henable
  rw [shown_eq hfound hidle covers, shown_eq hflagged hidle covers]
  ext1 key
  rw [Dict.get?_insert]
  by_cases hdeclared : ∃ spec ∈ schema.attributes, spec.responseKey = key
  · obtain ⟨spec, hspec, rfl⟩ := hdeclared
    rw [get?_fit_reported hregular hflagged hspec, get?_fit_reported hregular hfound hspec]
    by_cases hflag : spec = own
    · subst hflag
      rw [stock_flag_withFlag enabled found hattribute, if_neg (by simp), if_pos hkey.symm, hscalar,
        hencoding]
      rfl
    · have hne : flag.attr ≠ spec.responseKey := fun heq ↦
        hflag (hregular.eq_of_responseKey_eq hspec hown (heq.symm.trans hkey.symm))
      have hunflagged : schema.toDeclaration.isEnableAttribute spec.name = false := by
        rwa [← Bool.not_eq_true, hregular.isEnableAttribute_iff henable hattribute hspec]
      rw [stock_withFlag hregular henable enabled found hspec hunflagged, if_neg hne]
  · have hundeclared : ∀ spec ∈ schema.attributes, spec.responseKey ≠ key :=
      fun spec hspec heq ↦ hdeclared ⟨spec, hspec, heq⟩
    rw [if_neg (hkey ▸ hundeclared own hown),
      (shows_fit hregular hflagged).undeclared key hundeclared,
      (shows_fit hregular hfound).undeclared key hundeclared]

/-- The call that sets the flag reports no object, and what was known of the object takes its
place. -/
theorem yields_flag (intact : Intact schema.toDeclaration allowed texts held)
    {enabling : Option RemoteCall}
    (henabling : enableCall schema.toDeclaration identity desired.state
      (shown schema.toDeclaration identity held) = .ok enabling) :
    Yields (alone faults schema.toDeclaration)
      (issueAll schema.toDeclaration false none enabling.toList) held fun flagged held' ↦
        Intact schema.toDeclaration allowed texts held' ∧
          (flagged.map (withFlag schema.toDeclaration desired.state
              (shown schema.toDeclaration identity held))).getD
            (shown schema.toDeclaration identity held) = shown schema.toDeclaration identity held' ∧
          (held' = none → held = none ∧ enabling = none) := by
  have hregular := ObjectSchema.regular_of_mem_builtins hschema
  have hcovers := valid.spells.covers hregular
  cases enabling with
  | none => exact .done ⟨intact, rfl, fun hnone ↦ ⟨hnone, rfl⟩⟩
  | some call =>
    have hconcerns : Concerns schema.toDeclaration texts allowed call :=
      concerns_enableCall hregular valid henabling
    refine (yields_issue hconcerns fun result held' hanswers ↦ ?_).bind fun reported next hgood ↦
      .done hgood
    have hintact := intact.answers hregular hconcerns hanswers
    obtain ⟨enabled, flag, hforced, rfl⟩ := enableCall_eq_some henabling
    have henable := (forcedFlag_eq_some_iff.1 hforced).2
    have hid := valid.spells.identityOf_positional hregular
    have hoperation := ofMethod?_setEnabled hregular enabled (by rw [henable]; rfl)
    cases hanswers.leaves (hoperation _) (by simp) hid intact.named with
    | @flagged found flag' _ verb henable' =>
      cases henable.symm.trans henable'
      refine ⟨hintact, ?_, by simp⟩
      rw [object_flagged hschema _ _ _ (covers_identityOfCall _ _)]
      simp only [Option.some_or, Option.map_some, Option.getD_some, withFlag, hforced]
      exact (shown_withFlag hschema henable enabled intact.sound hintact.sound hcovers).symm

/-- Each call of a list method describes the object that it leaves, so the last one tells what there
is in the end. -/
theorem yields_lists {calls : List RemoteCall}
    (hcalls : ∀ call ∈ calls, Concerns schema.toDeclaration texts allowed call ∧
      ∃ operation, ofMethod? schema.toDeclaration call.method call.arguments = some operation ∧
        Describes operation)
    (intact : Intact schema.toDeclaration allowed texts held) (last : Option RemoteObject) :
    Yields (alone faults schema.toDeclaration) (issueAll schema.toDeclaration false last calls) held
      fun listed held' ↦ (calls = [] ∧ listed = last ∧ held' = held) ∨
        calls ≠ [] ∧ listed = some (told schema.toDeclaration identity held') ∧
          (schema.creation = .explicit → held'.isSome) := by
  have hregular := ObjectSchema.regular_of_mem_builtins hschema
  -- Each call leaves an intact object, and what it told of that object is the last report so far.
  induction calls generalizing held last with
  | nil => exact .done (.inl ⟨rfl, rfl, rfl⟩)
  | cons call rest ih =>
    obtain ⟨hconcerns, operation, hoperation, hdescribes⟩ := hcalls call List.mem_cons_self
    have hissue : Yields (alone faults schema.toDeclaration)
        (issue schema.toDeclaration false call) held
        fun reported held' ↦ Intact schema.toDeclaration allowed texts held' ∧
          reported = some (told schema.toDeclaration identity held') ∧
            (schema.creation = .explicit → held'.isSome) := by
      refine yields_issue hconcerns fun result held' hanswers ↦ ?_
      have hintact := intact.answers hregular hconcerns hanswers
      obtain ⟨other, hother, hfind, hid, -⟩ := hconcerns
      cases hoperation.symm.trans hother
      obtain ⟨hobject, hstays⟩ := object_of_describes hschema hdescribes
        (hanswers.leaves hoperation hfind hid intact.named)
      refine ⟨hintact, ?_, hstays⟩
      rw [hobject, told_congr hschema hintact.sound (valid.spells.covers hregular)
        (covers_identityOfCall _ call)]
    refine hissue.bind fun reported middle ⟨hintact, hreported, hstays⟩ ↦ ?_
    have hrest := ih (fun other hother ↦ hcalls other (List.mem_cons_of_mem _ hother)) hintact
      (reported.or last)
    intro listed hlisted
    rcases hrest listed hlisted with ⟨-, rfl, hheld⟩ | ⟨-, htold⟩
    · refine .inr ⟨by simp, ?_⟩
      rw [hheld, hreported]
      exact ⟨rfl, hstays⟩
    · exact .inr ⟨by simp, htold⟩

/-! ## The run -/

variable (hdry : desired.dryRun = false)
  (hallowed : ∀ spec scalars, Asks schema.toDeclaration desired spec scalars → spec.isList = true →
    ∀ v ∈ scalars, allowed spec.name v)
  (intact : Intact schema.toDeclaration allowed texts held)

include hdry hallowed intact

theorem yields_apply (hcomes : Comes schema.toDeclaration desired changes)
    (hlists : desired.state = .absent → desired.hasLists schema.toDeclaration = true) :
    Yields (alone faults schema.toDeclaration) (apply schema.toDeclaration desired identity
      (shown schema.toDeclaration identity held) changes) held
        (Reports schema.toDeclaration desired identity) := by
  have hregular := ObjectSchema.regular_of_mem_builtins hschema
  unfold apply
  rw [hdry]
  refine (yields_primary hschema valid hcomes hallowed intact _).bind
    fun created middle ⟨hintact, hcreated, hnone⟩ ↦ ?_
  rw [hcreated]
  refine Yields.ofExcept_bind fun enabling henabling ↦
    (yields_flag hschema valid hintact henabling).bind
      fun flagged middle' ⟨hintact', hflagged, hnone'⟩ ↦ ?_
  refine (yields_lists hschema valid (fun call hcall ↦ ⟨?_, ?_⟩) hintact' none).bind
    fun listed left hlisted ↦ .note _ (.done ?_)
  · exact concerns_listCalls hregular valid (comes_afterPrimary hcomes) hallowed hcall
  · exact describes_listCalls hregular valid.spells hcall
  have hwhole : desired.state = .absent → desired.hasLists schema.toDeclaration = false →
      left = none := fun habsent hnolists ↦ by simp [hlists habsent] at hnolists
  rcases hlisted with ⟨hnolists, rfl, rfl⟩ | ⟨hsome, rfl, hstays⟩
  · refine .stored ?_ (fun hgone ↦ ?_) hwhole
    · rw [Option.none_or, hflagged]
    · obtain ⟨hmiddle, rfl⟩ := hnone' hgone
      rw [hnolists, (hnone hmiddle).2]
      exact .inl rfl
  · rw [Option.some_or, Option.getD_some]
    cases left with
    | some entry => exact .stored rfl (by simp) hwhole
    | none =>
      refine .emptied ?_ rfl (by simp [hsome]) hlists
      cases hcreation : schema.creation with
      | implicit => rfl
      | explicit => simp [hcreation] at hstays

/-- What follows the search of a run. -/
theorem yields_conclude :
    Yields (alone faults schema.toDeclaration) (conclude schema.toDeclaration desired identity
      (shown schema.toDeclaration identity held)) held
        (Reports schema.toDeclaration desired identity) := by
  have hregular := ObjectSchema.regular_of_mem_builtins hschema
  have hcovers := valid.spells.covers hregular
  have hempty := shown_none hschema hcovers
  unfold conclude
  rw [isEmpty_shown hschema intact.sound hcovers, hdry]
  split
  next hgone =>
    have hnone : held = none := by simpa using (Bool.and_eq_true_iff.1 hgone).2
    exact .note _ (.done (.stored (by rw [hnone, hempty]) (fun _ ↦ .inl rfl) fun _ _ ↦ hnone))
  split
  next hwhole =>
    rw [Bool.and_eq_true, decide_eq_true_eq, Bool.not_eq_true'] at hwhole
    have hconcerns : Concerns schema.toDeclaration texts allowed
        (removeCall schema.toDeclaration identity) := concerns_removeCall hregular valid
    have hissue : Yields (alone faults schema.toDeclaration) (issue schema.toDeclaration false
        (removeCall schema.toDeclaration identity)) held fun _ held' ↦ held' = none :=
      yields_issue hconcerns fun _ _ hanswers ↦
        held_of_removeCall hregular valid.spells intact.named hanswers
    refine hissue.bind fun _ left hnone ↦ .note _ (.done ?_)
    exact .stored (by rw [hnone, hempty]) (fun _ ↦ .inr hwhole) fun _ _ ↦ hnone
  next hkeeps =>
    refine Yields.ofExcept_bind fun changes hplan ↦ .note _ ?_
    refine yields_apply hschema valid hdry hallowed intact (comes_of_plan hregular valid hplan) ?_
    exact fun habsent ↦ by simpa [habsent] using hkeeps

omit hdry hallowed in
/-- The search for the object finds it as it is stored. -/
theorem yields_find :
    Yields (alone faults schema.toDeclaration) (schema.toDeclaration.find identity) held
      fun found held' ↦ found = shown schema.toDeclaration identity held ∧ held' = held := by
  have hregular := ObjectSchema.regular_of_mem_builtins hschema
  have hoperation : ofMethod? schema.toDeclaration (schema.toDeclaration.findCall identity).method
      (schema.toDeclaration.findCall identity).arguments = some .find := ofMethod?_find _
  refine yields_exchange (by rw [hoperation]; rfl) fun result held' hanswers ↦ ?_
  obtain ⟨operation, entries, hother, hperform, rfl⟩ := hanswers
  cases hoperation.symm.trans hother
  rw [perform_find] at hperform
  obtain ⟨rfl, rfl⟩ := Prod.mk.inj (Except.ok.inj hperform)
  exact ⟨object_search_toList hregular valid.spells intact.named intact.sound, Option.head?_toList⟩

/-- A run that succeeds reports the object that it leaves. -/
theorem yields_run (hvalidate : validate schema.toDeclaration desired = .ok identity) :
    Yields (alone faults schema.toDeclaration) (run schema.toDeclaration desired) held
      (Reports schema.toDeclaration desired identity) := by
  rw [run_eq hvalidate]
  refine .note _ ((yields_find hschema valid intact).bind ?_)
  rintro _ _ ⟨rfl, rfl⟩
  exact .note _ (yields_conclude hschema valid hdry hallowed intact)

/-! ## What the report tells of the object -/

omit valid hdry hallowed intact

/-- An object that it takes a call to create is reported as it is stored. -/
theorem Reports.object_eq {outcome : Outcome}
    (h : Reports schema.toDeclaration desired identity outcome held)
    (hexplicit : schema.creation = .explicit) (covers : schema.toDeclaration.Covers identity) :
    outcome.object = shown schema.toDeclaration identity held ∧
      (desired.state = .absent → desired.hasLists schema.toDeclaration = false →
        outcome.object = ∅) := by
  cases h with
  | stored hobject hgone hwhole =>
    refine ⟨hobject, fun habsent hlists ↦ ?_⟩
    rw [hobject, hwhole habsent hlists]
    exact shown_none hschema covers
  | emptied himplicit => simp [hexplicit] at himplicit

/-- A report has no fields when the object is gone and no list values were removed from it. -/
theorem Reports.object_eq_empty_iff {outcome : Outcome}
    (h : Reports schema.toDeclaration desired identity outcome held)
    (hheld : ∀ entry ∈ held, entry.Sound schema.toDeclaration allowed)
    (covers : schema.toDeclaration.Covers identity) :
    outcome.object = ∅ ↔ held = none ∧ (outcome.calls = [] ∨
      desired.state = .absent ∧ desired.hasLists schema.toDeclaration = false) := by
  cases h with
  | stored hobject hgone =>
    have hempty : outcome.object = ∅ ↔ held = none := by
      rw [hobject, ← Dict.isEmpty_iff, isEmpty_shown hschema hheld covers, Option.isNone_iff_eq_none]
    rw [hempty]
    exact ⟨fun hnone ↦ ⟨hnone, hgone hnone⟩, And.left⟩
  | emptied himplicit hobject hcalls hlists =>
    rw [hobject]
    refine iff_of_false (by decide) ?_
    rintro ⟨-, hnone | ⟨habsent, hnolists⟩⟩
    · exact hcalls hnone
    · simp [hlists habsent] at hnolists

theorem Reports.object_of_none {outcome : Outcome}
    (h : Reports schema.toDeclaration desired identity outcome none)
    (covers : schema.toDeclaration.Covers identity) :
    outcome.object = ∅ ∨ outcome.object = tombstone := by
  cases h with
  | stored hobject => exact .inl (hobject.trans (shown_none hschema covers))
  | emptied himplicit hobject => exact .inr hobject

end Ensure

end DirectoryReconcile
