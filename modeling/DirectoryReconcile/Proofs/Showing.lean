import DirectoryReconcile.Proofs.Candidates
import DirectoryReconcile.Proofs.Flagging

/-!
# The flag that is shown

The call that sets the flag may be answered without an object. The run then shows the object before,
with the flag under the name of its attribute. What is read of an object is what it has under the
name that the service gives the attribute, so the flag is shown exactly where the two names agree.
-/

namespace DirectoryReconcile

/-! ## Replies -/

/-- The last reply is the one to the last call. -/
theorem Transport.getLast?_replies {σ : Type} (transport : Transport σ) (calls : List RemoteCall)
    (call : RemoteCall) (state : σ) :
    (transport.replies (calls ++ [call]) state).getLast? =
      some (transport (transport.after calls state) call.method call.params).1 := by
  induction calls generalizing state with
  | nil => rfl
  | cons first rest ih =>
    rw [List.cons_append, Transport.replies, List.getLast?_cons, ih]
    rfl

/-- A reply without an object is presented as nothing is. -/
theorem Response.object_of_bare {declaration : Declaration} {keep : Json → Bool} {body : Json}
    (h : (select keep (result body)).fields = ∅) (identity : Identity) :
    object declaration keep identity body = present declaration identity .null := by
  unfold object present
  rw [h]
  rfl

/-! ## What is read of the flag -/

namespace ObjectSchema

variable (schema : ObjectSchema) {flag : EnableSpec} {spec : AttributeSpec}
  (henable : schema.enable = some flag) (hspec : schema.attribute? flag.attr = some spec)

include henable hspec

/-- A value under the name of the flag is read if this is the service's name for it, too. -/
theorem isEnabled_insert (object : RemoteObject) (raw : Json) :
    schema.isEnabled (object.insert flag.attr raw) =
      if spec.responseKey = flag.attr then schema.isEnabled (.ofList [(flag.attr, raw)])
      else schema.isEnabled object := by
  unfold Declaration.isEnabled
  simp only [henable, hspec]
  by_cases hkey : spec.responseKey = flag.attr
  · have hsingle : (Dict.ofList [(flag.attr, raw)]).get? flag.attr = some raw :=
      Dict.get?_insert_self _ _ _
    rw [if_pos hkey, hkey, Dict.get?_insert_self, hsingle]
  · rw [if_neg hkey, Dict.get?_insert, if_neg (Ne.symm hkey)]

/-- The value stored for a flag is read as the flag, unless a normalizer of the type's own is in the
way. -/
theorem isEnabled_storedValue (hkey : spec.responseKey = flag.attr)
    (hknown : ∀ normalizer ∈ spec.normalizer, normalizer ∈ ValueNormalizer.known) (enabled : Bool) :
    schema.isEnabled (.ofList [(flag.attr, .bool (flag.storedValue enabled))]) = .ok enabled := by
  obtain ⟨own, hown, -, hscalar, hkind⟩ := schema.exists_flag henable
  cases hspec.symm.trans hown
  have helement (b : Bool) : spec.normalizeElement (.bool b) = .ok (.bool b) := by
    unfold AttributeSpec.normalizeElement
    rw [hkind]
    cases hnormalizer : spec.normalizer with
    | none => rfl
    | some normalizer =>
      rcases ValueNormalizer.mem_known_iff.1 (hknown normalizer hnormalizer) with rfl | rfl | rfl <;>
        rfl
  have hread (b : Bool) : spec.normalize (.bool b) = .ok (.scalar (.bool b)) := by
    refine AttributeSpec.normalize_eq_ok_iff.2 ?_
    simp [AttributeSpec.canonical, AttributeSpec.elements, helement,
      AttributeSpec.cardinality_of_not_isList hscalar, AttributeSpec.shape, Scalar.isNull, bind,
      Except.bind, pure, Except.pure]
  have hget (raw : Json) : (Dict.ofList [(flag.attr, raw)]).get? flag.attr = some raw :=
    Dict.get?_insert_self _ _ _
  refine schema.isEnabled_eq_ok_iff.2 (.inl ⟨flag, henable, ?_⟩)
  simp [Declaration.flagOf?, henable, hspec, hkey, hget, hread]

end ObjectSchema

namespace Ensure

open Exchange Declaration Difference

variable {σ : Type} {transport : Transport σ} {declaration : Declaration} {desired : DesiredState}
  {identity : Identity} {found baseline : RemoteObject} {changes : ChangeSet} {state : σ}
  {outcome : Outcome}

/-! ## The last call -/

theorem findCall_ne_plain (declaration : Declaration) (identity : Identity) (method : String)
    (positional : List Json) : declaration.findCall identity ≠ .plain method positional :=
  ne_plain_of_item (Dict.insertMany_ne_empty _ (.inl (Dict.insert_ne_empty ∅ "all" _)))

theorem primaryCall_ne_plain {action : Action} {call : RemoteCall}
    (h : primaryCall declaration identity action changes = some call) (method : String)
    (positional : List Json) : call ≠ .plain method positional := by
  obtain ⟨rfl, -⟩ := primaryCall_eq_some h
  exact ne_plain_of_item (Dict.insertMany_ne_empty ∅ (.inr (by simp)))

theorem ne_plain_of_mem_listCalls {call : RemoteCall}
    (h : call ∈ listCalls declaration identity changes) (method : String) :
    call ≠ .plain method (declaration.positional identity) :=
  (List.mem_append.1 h).elim (ne_plain_of_mem_phaseCalls method) (ne_plain_of_mem_phaseCalls method)

/-- Calls that end with the one that sets the flag have no list values to add or remove. -/
theorem eq_of_getLast?_eq_plain {action : Action} {flag : Option RemoteCall} {left : ChangeSet}
    {method : String}
    (h : (declaration.findCall identity ::
        ((primaryCall declaration identity action changes).toList ++ flag.toList ++
          listCalls declaration identity left)).getLast? =
      some (.plain method (declaration.positional identity))) :
    listCalls declaration identity left = [] ∧
      flag = some (.plain method (declaration.positional identity)) := by
  have hlists : listCalls declaration identity left = [] := by
    by_contra hne
    rw [← List.cons_append, List.getLast?_append_of_ne_nil _ hne] at h
    exact ne_plain_of_mem_listCalls (List.mem_of_getLast? h) method rfl
  refine ⟨hlists, ?_⟩
  cases flag with
  | some call =>
    rw [hlists, List.append_nil, ← List.cons_append, List.getLast?_append_of_ne_nil _ (by simp)] at h
    exact h
  | none =>
    rw [hlists, List.append_nil, Option.toList_none, List.append_nil] at h
    rcases List.mem_cons.1 (List.mem_of_getLast? h) with hfind | hprimary
    · exact absurd hfind.symm (findCall_ne_plain _ _ _ _)
    · exact absurd rfl (primaryCall_ne_plain (Option.mem_toList.1 hprimary) _ _)

/-- A call that is issued and does not fail has the object that its reply reports. -/
theorem exists_body_of_issueAll {call : RemoteCall} {reported : Option RemoteObject}
    (h : (Exchange.run transport (issueAll declaration false none [call]) state).1.result =
      .ok reported) :
    ∃ body, (transport state call.method call.params).1 = .ok body ∧
      reported = some (Response.object declaration (fun _ ↦ true) (declaration.identityOfCall call)
        body) := by
  rw [result_issueAll_single] at h
  obtain ⟨object, hanswer, rfl⟩ := map_eq_ok.1 h
  obtain ⟨body, hreply, -, rfl⟩ := answer_eq_ok_iff.1 hanswer
  exact ⟨body, hreply, rfl⟩

/-- A run that ends with the call that sets the flag, and well, shows what the reply to this call
leaves of the object that the flag was judged by. -/
theorem Baseline.object_of_flag {call : RemoteCall}
    (h : Baseline transport declaration desired.dryRun found state
      (primaryCall declaration identity (actionFor found) changes) baseline)
    (hreal : desired.dryRun = false)
    (hflag : enableCall declaration identity desired.state baseline = .ok (some call))
    (hlists : listCalls declaration identity
      (afterPrimary declaration (actionFor found) changes) = [])
    (hresult : (Exchange.run transport (apply declaration desired identity found changes)
      state).1.result = .ok outcome) :
    let before := (primaryCall declaration identity (actionFor found) changes).toList
    ∃ body, (transport (transport.after before state) call.method call.params).1 = .ok body ∧
      outcome.object = withFlag declaration desired.state baseline
        (Response.object declaration (fun _ ↦ true) (declaration.identityOfCall call) body) := by
  intro before
  obtain ⟨created, hcreated, rfl⟩ := h.result_issueAll
  have hnext : (Exchange.run transport (issueAll declaration desired.dryRun none before)
      state).2 = transport.after before state := by
    rw [run_state, ((follows_issueAll transport declaration desired.dryRun none before
      state).completed created hcreated).1, hreal]
    rfl
  unfold apply at hresult
  simp only [bind_eq] at hresult
  rw [result_bind_of_ok hcreated, hnext] at hresult
  simp only [hflag, hlists, hreal, Exchange.ofExcept, Exchange.bind, Option.toList_some] at hresult
  obtain ⟨flagged, hflagged, hrest⟩ := exists_of_bind_ok hresult
  obtain ⟨body, hreply, rfl⟩ := exists_body_of_issueAll hflagged
  obtain rfl := Except.ok.inj hrest
  exact ⟨body, hreply, rfl⟩

/-! ## Whole runs -/

/-- A run that ends well and does not remove the object has carried out the plan for what it found. -/
theorem exists_apply_of_ok (hstate : desired.state ≠ .absent)
    (hvalidate : validate declaration desired = .ok identity)
    (hresult : (Exchange.run transport (run declaration desired) state).1.result = .ok outcome) :
    ∃ found changes, plan declaration desired found = .ok changes ∧
      let rest := (Exchange.run transport (apply declaration desired identity found changes)
        (transport.after [declaration.findCall identity] state)).1
      (Exchange.run transport (run declaration desired) state).1.posted =
        declaration.findCall identity :: rest.posted ∧ rest.result = .ok outcome := by
  rcases run_after_search transport declaration desired hvalidate state with
    ⟨failure, -, -, hfailure⟩ | ⟨found, -, hposted, hrest⟩
  · cases hfailure.symm.trans hresult
  rw [hresult, state_after_search, conclude_of_present hstate] at hrest
  rw [state_after_search, conclude_of_present hstate] at hposted
  cases hplan : plan declaration desired found with
  | error failure =>
    rw [hplan] at hrest
    cases hrest
  | ok changes =>
    rw [hplan] at hrest hposted
    exact ⟨found, changes, hplan, hposted, hrest.symm⟩

section

variable (schema : ObjectSchema) {flag : EnableSpec} {spec : AttributeSpec} {enabled : Bool}
  {body : Json} (henable : schema.enable = some flag)
  (hvalidate : validate schema.toDeclaration desired = .ok identity)
  (hforced : desired.state.forcedEnable = some enabled) (hreal : desired.dryRun = false)
  (hresult : (Exchange.run transport (run schema.toDeclaration desired) state).1.result =
    .ok outcome)

include henable hvalidate hforced hreal hresult

/-- The call that sets the flag was posted for an object with the other flag, and the outcome shows
what its reply leaves of this object. -/
theorem object_of_last_flag :
    let posted := (Exchange.run transport (run schema.toDeclaration desired) state).1.posted
    let call := RemoteCall.plain
      (if enabled then schema.methods.enable else schema.methods.disable) (schema.positional identity)
    posted.getLast? = some call → (transport.replies posted state).getLast? = some (.ok body) →
      ∃ baseline stored, schema.isEnabled baseline = .ok stored ∧ stored ≠ enabled ∧
        outcome.object = withFlag schema.toDeclaration desired.state baseline
          (Response.object schema.toDeclaration (fun _ ↦ true) (schema.identityOfCall call) body) := by
  intro posted call hlast hreply
  have hstate := TargetState.ne_absent_of_forcedEnable hforced
  obtain ⟨found, changes, -, hposted, hrest⟩ := exists_apply_of_ok hstate hvalidate hresult
  rcases apply_cases transport schema.toDeclaration desired identity found changes
    (transport.after [schema.findCall identity] state) with ⟨error, herror⟩ | ⟨baseline, hbaseline⟩
  · cases hrest.symm.trans herror
  have happly := hbaseline.run_apply
  cases hdue : enableCall schema.toDeclaration identity desired.state baseline with
  | error failure =>
    rw [hdue] at happly
    cases hrest.symm.trans happly.2
  | ok due =>
    rw [hdue] at happly
    have hcalls := hposted.trans (congrArg _ (happly.1 outcome hrest))
    simp only [hreal, sent, Bool.false_eq_true, if_false] at hcalls
    obtain ⟨hlists, rfl⟩ :=
      eq_of_getLast?_eq_plain ((congrArg List.getLast? hcalls).symm.trans hlast)
    obtain ⟨reported, hreported, hobject⟩ := hbaseline.object_of_flag hreal hdue hlists hrest
    -- The last reply is the one that the flag was set by.
    rw [hlists, List.append_nil, Option.toList_some, ← List.cons_append] at hcalls
    have hsame : some (.ok reported) = some (.ok body : Reply) := by
      rw [← hreply, show posted = _ from hcalls, Transport.getLast?_replies]
      exact congrArg some hreported.symm
    obtain rfl := Except.ok.inj (Option.some.inj hsame)
    rw [enableCall_of_forced (forcedFlag_eq_some_iff.2 ⟨hforced, henable⟩)] at hdue
    obtain ⟨stored, hstored, hset⟩ := map_eq_ok.1 hdue
    refine ⟨baseline, stored, hstored, fun heq ↦ ?_, hobject⟩
    rw [if_pos heq] at hset
    cases hset

/-- What a run shows that ends well, and with the call that sets the flag, when the reply to this call
has no object. Unless the type's hook makes an object of nothing, the flag is shown as requested
exactly if the service has the attribute's own name for it, and a normalizer of the type's own does
not get in the way. -/
theorem ensure_shows_flag_iff (hspec : schema.attribute? flag.attr = some spec) :
    let posted := (Exchange.run transport (run schema.toDeclaration desired) state).1.posted
    let call := RemoteCall.plain
      (if enabled then schema.methods.enable else schema.methods.disable) (schema.positional identity)
    let bare := Response.present schema.toDeclaration (schema.identityOfCall call) .null
    posted.getLast? = some call → (transport.replies posted state).getLast? = some (.ok body) →
      (Response.select (fun _ ↦ true) (Response.result body)).fields = ∅ →
        if bare.isEmpty then
          (schema.isEnabled outcome.object = .ok enabled ↔ spec.responseKey = flag.attr ∧
            schema.isEnabled (.ofList [(flag.attr, .bool (flag.storedValue enabled))]) =
              .ok enabled) ∧
          ((∀ normalizer ∈ spec.normalizer, normalizer ∈ ValueNormalizer.known) →
            (schema.isEnabled outcome.object = .ok enabled ↔ spec.responseKey = flag.attr))
        else outcome.object = bare := by
  intro posted call bare hlast hreply hbare
  obtain ⟨baseline, stored, hstored, hne, hobject⟩ :=
    object_of_last_flag schema henable hvalidate hforced hreal hresult hlast hreply
  rw [Response.object_of_bare hbare, withFlag,
    forcedFlag_eq_some_iff.2 ⟨hforced, henable⟩] at hobject
  split
  next hempty =>
    have hinserted : outcome.object =
        baseline.insert flag.attr (.bool (flag.storedValue enabled)) := hobject.trans (if_pos hempty)
    have hother : schema.isEnabled baseline ≠ .ok enabled := fun h ↦
      hne (Except.ok.inj (hstored.symm.trans h))
    have hiff : schema.isEnabled outcome.object = .ok enabled ↔ spec.responseKey = flag.attr ∧
        schema.isEnabled (.ofList [(flag.attr, .bool (flag.storedValue enabled))]) =
          .ok enabled := by
      rw [hinserted, schema.isEnabled_insert henable hspec]
      by_cases hkey : spec.responseKey = flag.attr
      · simp [hkey]
      · simp [hkey, hother]
    exact ⟨hiff, fun hknown ↦ hiff.trans ⟨And.left, fun hkey ↦
      ⟨hkey, schema.isEnabled_storedValue henable hspec hkey hknown enabled⟩⟩⟩
  next hempty => exact hobject.trans (if_neg hempty)

end

/-- Whether an account is locked, for which the service has another name. -/
def accountLock : AttributeSpec :=
  { AttributeSpec.scalar "locked" with kind := .bool, remoteName := some "nsaccountlock" }

def account : ObjectSchema where
  toDeclaration := { Declaration.ofName "account" with
    attributes := [AttributeSpec.identityKey "uid", accountLock]
    enable := some ⟨"locked", true⟩ }
  accepted := by decide +kernel

def disabledAccount : DesiredState :=
  { DesiredState.ofState .disabled false with
    identity := .ofList [("uid", .scalar (.str "alice"))] }

/-- The account as it is found. -/
def openAccount : Json :=
  .obj [("result", .obj [("uid", .arr [.str "alice"]), ("nsaccountlock", .bool false)])]

/-- The reply to the call that locks it. -/
def bareTrue : Json := .obj [("result", .obj [("result", .bool true)])]

/-- The account is locked and still shown as enabled. -/
theorem ensure_shows_flag_iff_disabledAccount :
    let replies : List (Except String Json) := [.ok openAccount, .ok bareTrue]
    let transcript := (Exchange.run Transport.scripted
      (run account.toDeclaration disabledAccount) replies).1
    transcript.posted = [account.findCall disabledAccount.identity,
        .plain "account_disable" [.str "alice"]] ∧
      Transport.scripted.replies transcript.posted replies = [.ok openAccount, .ok bareTrue] ∧
      ∃ outcome, transcript.result = .ok outcome ∧ account.isEnabled outcome.object ≠ .ok false := by
  intro replies transcript
  obtain ⟨outcome, houtcome⟩ := isOk_iff.1 (by decide +kernel : transcript.result.isOk = true)
  refine ⟨by decide +kernel, by decide +kernel, outcome, houtcome, ?_⟩
  have hspec : account.attribute? "locked" = some accountLock := rfl
  have hvalidate : validate account.toDeclaration disabledAccount =
      .ok disabledAccount.identity := by decide +kernel
  have hreply : (Transport.scripted.replies transcript.posted replies).getLast? =
      some (.ok bareTrue) := by decide +kernel
  have hshown := ensure_shows_flag_iff account rfl hvalidate rfl rfl houtcome hspec
    (by decide +kernel) hreply (by decide +kernel)
  rw [if_pos (by decide +kernel)] at hshown
  exact fun hdisabled ↦ absurd (hshown.1.1 hdisabled).1 (by decide +kernel)

end Ensure

end DirectoryReconcile
