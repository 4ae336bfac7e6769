import DirectoryReconcile.Ensure
import DirectoryReconcile.Proofs.Directory.Search
import DirectoryReconcile.Proofs.Exchange

/-!
# The course of a run of calls

Calls are posted one after the other until one of them meets a failure. What they make of the
entries of their type depends on those entries alone, as far as no injected failure is met.
-/

namespace DirectoryReconcile

open Declaration Operation

/-- The entries of a type after a call, if the service carries it out. -/
def Operation.carryOut? (declaration : Declaration) (entries : List Entry) (call : RemoteCall) :
    Option (List Entry) :=
  (ofMethod? declaration call.method call.arguments).bind fun operation ↦
    (operation.perform declaration entries call.arguments).toOption.map (·.2)

/-- The failure that a run ended with. -/
def Transcript.failure? {α : Type} (transcript : Transcript α) : Option Failure :=
  match transcript.result with
  | .ok _ => none
  | .error failure => some failure

/-- The course of calls on the entries of a type: the calls posted, the failure that ended them, if
any, and the entries afterwards. -/
inductive Course (declaration : Declaration) (faults : Dict InjectedFault) :
    List Entry → List RemoteCall → List RemoteCall → Option Failure → List Entry → Prop
  | done {entries : List Entry} : Course declaration faults entries [] [] none entries
  | refused {entries : List Entry} {call : RemoteCall} {rest : List RemoteCall} (failure : Failure)
      (h : faults.get? call.method = none → carryOut? declaration entries call = none) :
    Course declaration faults entries (call :: rest) [call] (some failure) entries
  | step {entries middle after : List Entry} {call : RemoteCall} {rest posted : List RemoteCall}
      {failure? : Option Failure} (hfault : faults.get? call.method = none)
      (hcarried : carryOut? declaration entries call = some middle)
      (hrest : Course declaration faults middle rest posted failure? after) :
    Course declaration faults entries (call :: rest) (call :: posted) failure? after

namespace Course

variable {declaration : Declaration} {faults : Dict InjectedFault}
  {entries middle after : List Entry} {calls calls' posted posted' : List RemoteCall}
  {failure? : Option Failure}

theorem append (h : Course declaration faults entries calls posted none middle)
    (h' : Course declaration faults middle calls' posted' failure? after) :
    Course declaration faults entries (calls ++ calls') (posted ++ posted') failure? after := by
  generalize hnone : (none : Option Failure) = ended at h
  induction h with
  | done => exact h'
  | refused failure _ => simp at hnone
  | step hfault hcarried _ ih => exact .step hfault hcarried (ih h' hnone)

/-- After a failure no more calls are posted. -/
theorem cut {failure : Failure}
    (h : Course declaration faults entries calls posted (some failure) after) (calls' : List RemoteCall) :
    Course declaration faults entries (calls ++ calls') posted (some failure) after := by
  generalize hsome : some failure = ended at h
  induction h with
  | done => simp at hsome
  | refused failure h => exact .refused failure h
  | step hfault hcarried _ ih => exact .step hfault hcarried (ih hsome)

theorem posted_eq (h : Course declaration faults entries calls posted none after) : posted = calls := by
  generalize hnone : (none : Option Failure) = ended at h
  induction h with
  | done => rfl
  | refused failure _ => simp at hnone
  | step _ _ _ ih => rw [ih hnone]

theorem posted_eq_nil_iff (h : Course declaration faults entries calls posted failure? after) :
    posted = [] ↔ calls = [] := by
  cases h <;> simp

theorem of_nil (h : Course declaration faults entries [] posted failure? after) :
    failure? = none ∧ after = entries := by
  cases h
  exact ⟨rfl, rfl⟩

theorem split (h : Course declaration faults entries (calls ++ calls') posted none after) :
    ∃ middle, Course declaration faults entries calls calls none middle ∧
      Course declaration faults middle calls' calls' none after := by
  induction calls generalizing entries posted with
  | nil =>
    cases h.posted_eq
    exact ⟨entries, .done, h⟩
  | cons call rest ih =>
    cases h with
    | step hfault hcarried hrest =>
      obtain ⟨middle, hcourse, hcourse'⟩ := ih hrest
      exact ⟨middle, .step hfault hcarried hcourse, hcourse'⟩

/-- Calls that can all be carried out are, unless a failure is injected. -/
theorem unique {final : List Entry} (h : Course declaration ∅ entries calls calls' none final)
    (h' : Course declaration ∅ entries calls posted failure? after) :
    failure? = none ∧ after = final ∧ posted = calls := by
  generalize hnone : (none : Option Failure) = ended at h
  induction h generalizing posted with
  | done =>
    cases h'
    exact ⟨rfl, rfl, rfl⟩
  | refused failure _ => simp at hnone
  | step hfault hcarried _ ih =>
    cases h' with
    | refused failure hrefused => simp [hcarried] at hrefused
    | step _ hcarried' hrest =>
      cases hcarried.symm.trans hcarried'
      obtain ⟨hend, hafter, rfl⟩ := ih hrest hnone
      exact ⟨hend, hafter, rfl⟩

end Course

namespace Response

theorem fault?_refusalBody (method : String) (refusal : Refusal) :
    (fault? method (Directory.refusalBody refusal)).isSome := by
  have hget : (Directory.refusalBody refusal).get? "error" =
      some (.ofFields [("code", .int refusal.code.toInt), ("message", .str refusal.message),
        ("name", .str refusal.name)]) := by
    unfold Directory.refusalBody
    rw [Json.get?_ofFields (by simp)]
    simp [Dict.lookupEntry]
  unfold fault?
  rw [hget]
  rfl

end Response

namespace Directory

variable {directory : Directory} {schema : ObjectSchema} {call : RemoteCall}

/-- A reply that reports a failure. -/
def Fails (method : String) (reply : Reply) : Prop :=
  ∀ body, reply = .ok body → (Response.fault? method body).isSome

/-- A call is either carried out on the entries of its type or leaves everything as it was. -/
theorem post_cases (hregistry : directory.registry = .builtin)
    (hschema : schema ∈ ObjectSchema.builtins)
    (hoperation : (ofMethod? schema.toDeclaration call.method call.arguments).isSome) :
    (directory.faults.get? call.method = none ∧ ∃ operation result entries,
      ofMethod? schema.toDeclaration call.method call.arguments = some operation ∧
        operation.perform schema.toDeclaration (directory.entriesOf schema.name) call.arguments =
          .ok (result, entries) ∧
        directory.post call.method call.params = (.ok (resultBody result),
          (directory.receive call.method call.params).withEntries schema.name entries)) ∨
    (directory.faults.get? call.method = none →
      carryOut? schema.toDeclaration (directory.entriesOf schema.name) call = none) ∧
      Fails call.method (directory.post call.method call.params).1 ∧
        ((directory.post call.method call.params).2 = directory.receive call.method call.params ∨
          directory.faults.get? call.method = none ∧
            (directory.post call.method call.params).2 =
              (directory.receive call.method call.params).withEntries schema.name
                (directory.entriesOf schema.name)) := by
  obtain ⟨operation, hoperation⟩ := Option.isSome_iff_exists.1 hoperation
  rw [post_eq hregistry hschema hoperation]
  cases directory.faults.get? call.method with
  | some fault =>
    refine .inr ⟨by simp, ?_⟩
    cases fault with
    | transport message => exact ⟨by rintro body ⟨⟩, .inl rfl⟩
    | fault code message =>
      exact ⟨by rintro body ⟨⟩; exact Response.fault?_refusalBody _ _, .inl rfl⟩
  | none =>
    cases hdone : operation.perform schema.toDeclaration (directory.entriesOf schema.name)
        call.arguments with
    | ok done => exact .inl ⟨rfl, operation, done.1, done.2, hoperation, hdone, rfl⟩
    | error refusal =>
      refine .inr ⟨fun _ ↦ ?_, ?_, .inr ⟨rfl, rfl⟩⟩
      · unfold carryOut?
        rw [hoperation, Option.bind_some, hdone]
        rfl
      · rintro body ⟨⟩
        exact Response.fault?_refusalBody _ _

/-- The same directory, whatever calls it received. -/
structure Like (first second : Directory) : Prop where
  registry : first.registry = second.registry
  objects : first.objects = second.objects
  faults : first.faults = second.faults

theorem Like.trans {first second third : Directory} (h : first.Like second)
    (h' : second.Like third) : first.Like third :=
  ⟨h.registry.trans h'.registry, h.objects.trans h'.objects, h.faults.trans h'.faults⟩

theorem Like.withEntries {first second : Directory} (h : first.Like second) (type : String)
    (entries : List Entry) : (first.withEntries type entries).Like (second.withEntries type entries) :=
  ⟨h.registry, congrArg (·.insert type entries) h.objects, h.faults⟩

theorem like_withEntries {directory : Directory} {type : String} {entries : List Entry}
    (hentries : directory.objects.get? type = some entries) :
    directory.Like (directory.withEntries type entries) :=
  ⟨rfl, (Dict.insert_get? directory.objects hentries).symm, rfl⟩

theorem withEntries_withEntries (directory : Directory) (type : String) (first second : List Entry) :
    ((directory.withEntries type first).withEntries type second).Like
      (directory.withEntries type second) :=
  ⟨rfl, Dict.insert_insert directory.objects type first second, rfl⟩

theorem Like.get?_objects {directory after : Directory} {type : String} {entries : List Entry}
    (h : after.Like (directory.withEntries type entries)) :
    after.objects.get? type = some entries := by
  rw [h.objects]
  exact Dict.get?_insert_self directory.objects type entries

end Directory

namespace Ensure

open Directory Exchange

variable {directory : Directory} {schema : ObjectSchema} {call : RemoteCall} {entries : List Entry}
  {α β : Type}

/-- A run that takes the course of these calls and, if it ends well, has a good result. -/
structure Takes (schema : ObjectSchema) (directory : Directory) (entries : List Entry)
    (calls : List RemoteCall) (good : α → Prop) (ran : Transcript α × Directory) : Prop where
  course : ∃ after, Course schema.toDeclaration directory.faults entries calls ran.1.posted
    ran.1.failure? after ∧ ran.2.Like (directory.withEntries schema.name after)
  good : ∀ value, ran.1.result = .ok value → good value

theorem Takes.done {good : α → Prop} {value : α}
    (hentries : directory.objects.get? schema.name = some entries) (hvalue : good value) :
    Takes schema directory entries [] good (Exchange.run transport (.done value) directory) where
  course := ⟨entries, .done, like_withEntries hentries⟩
  good := by rintro _ ⟨⟩; exact hvalue

theorem Takes.note {calls : List RemoteCall} {good : α → Prop} {exchange : Exchange α} (event : Event)
    (h : Takes schema directory entries calls good (Exchange.run transport exchange directory)) :
    Takes schema directory entries calls good
      (Exchange.run transport (.note event exchange) directory) :=
  ⟨h.course, h.good⟩

theorem Takes.bind {calls calls' : List RemoteCall} {good : α → Prop} {good' : β → Prop}
    {exchange : Exchange α} {f : α → Exchange β} (hregistry : directory.registry = .builtin)
    (h : Takes schema directory entries calls good (Exchange.run transport exchange directory))
    (hnext : ∀ value, good value → ∀ (next : Directory) (middle : List Entry),
      next.registry = .builtin → next.objects.get? schema.name = some middle →
        Takes schema next middle calls' good' (Exchange.run transport (f value) next)) :
    Takes schema directory entries (calls ++ calls') good'
      (Exchange.run transport (exchange.bind f) directory) := by
  obtain ⟨⟨middle, hcourse, hlike⟩, hgood⟩ := h
  rw [run_bind]
  generalize Exchange.run transport exchange directory = ran at hcourse hlike hgood ⊢
  obtain ⟨⟨result, events, posted⟩, next⟩ := ran
  simp only [Transcript.failure?] at hcourse hlike hgood ⊢
  cases result with
  | error failure => exact ⟨⟨middle, hcourse.cut calls', hlike⟩, fun _ h ↦ by simp at h⟩
  | ok value =>
    obtain ⟨⟨after, hcourse', hlike'⟩, hgood'⟩ := hnext value (hgood value rfl) next middle
      (hlike.registry.trans hregistry) hlike.get?_objects
    refine ⟨⟨after, hcourse.append (hlike.faults ▸ hcourse'), ?_⟩, hgood'⟩
    exact hlike'.trans ((hlike.withEntries _ _).trans (withEntries_withEntries _ _ _ _))

/-- After the last call of a run nothing else is posted. -/
theorem Takes.bind_nil {calls : List RemoteCall} {good : α → Prop} {good' : β → Prop}
    {exchange : Exchange α} {f : α → Exchange β} (hregistry : directory.registry = .builtin)
    (h : Takes schema directory entries calls good (Exchange.run transport exchange directory))
    (hnext : ∀ value, good value → ∀ (next : Directory) (middle : List Entry),
      next.registry = .builtin → next.objects.get? schema.name = some middle →
        Takes schema next middle [] good' (Exchange.run transport (f value) next)) :
    Takes schema directory entries calls good'
      (Exchange.run transport (exchange.bind f) directory) := by
  have hbind := h.bind hregistry hnext
  rwa [List.append_nil] at hbind

/-- What a run that issues one call leaves behind. -/
theorem run_issue_eq {σ : Type} (service : Transport σ) (declaration : Declaration)
    (call : RemoteCall) (state : σ) :
    Exchange.run service (issue declaration false call) state =
      (⟨(answer declaration call (fun _ ↦ true) (declaration.identityOfCall call)
          (service state call.method call.params).1).map some,
        [⟨.call, some call.method, call.display⟩], [call]⟩,
        (service state call.method call.params).2) := by
  simp only [issue, record, bind_eq, Exchange.bind, Declaration.invoke, Bool.false_eq_true, if_false,
    Exchange.run, run_bind, run_exchange]
  cases answer declaration call _ _ (service state call.method call.params).1 <;> rfl

variable (hschema : schema ∈ ObjectSchema.builtins) (hregistry : directory.registry = .builtin)
  (hentries : directory.objects.get? schema.name = some entries)

include hschema hregistry hentries

/-- The run of a single call, carried out or refused. -/
theorem run_issue
    (hoperation : (ofMethod? schema.toDeclaration call.method call.arguments).isSome) :
    let issued := Exchange.run transport (issue schema.toDeclaration false call) directory
    (directory.faults.get? call.method = none ∧ ∃ operation result after,
        ofMethod? schema.toDeclaration call.method call.arguments = some operation ∧
          operation.perform schema.toDeclaration entries call.arguments = .ok (result, after) ∧
          issued.1.result = .ok (some (Response.object schema.toDeclaration (fun _ ↦ true)
            (schema.toDeclaration.identityOfCall call) (resultBody result))) ∧
          issued.2.Like (directory.withEntries schema.name after)) ∨
      (directory.faults.get? call.method = none →
          carryOut? schema.toDeclaration entries call = none) ∧
        (∃ failure, issued.1.result = .error failure) ∧
          issued.2.Like (directory.withEntries schema.name entries) := by
  have hcases := post_cases hregistry hschema hoperation
  have hentriesOf : directory.entriesOf schema.name = entries := by
    unfold entriesOf
    rw [hentries, Option.getD_some]
  rw [hentriesOf] at hcases
  intro issued
  have hissued : issued = _ := run_issue_eq transport schema.toDeclaration call directory
  unfold transport at hissued
  rcases hcases with ⟨hfault, operation, result, after, hoperation, hperform, hpost⟩ |
    ⟨hrefused, hfails, hpost⟩
  · refine .inl ⟨hfault, operation, result, after, hoperation, hperform, ?_, ?_⟩
    · rw [hissued, hpost]
      simp only [answer, Response.fault?_resultBody, Except.map]
    · rw [hissued, hpost]
      exact ⟨rfl, rfl, rfl⟩
  · refine .inr ⟨hrefused, ?_, ?_⟩
    · rw [hissued]
      cases hreply : (directory.post call.method call.params).1 with
      | error error => exact ⟨_, rfl⟩
      | ok body =>
        obtain ⟨error, herror⟩ := Option.isSome_iff_exists.1 (hfails body hreply)
        simp only [answer, herror]
        exact ⟨_, rfl⟩
    · have hlike : directory.Like (directory.withEntries schema.name entries) :=
        like_withEntries hentries
      rw [hissued]
      rcases hpost with hpost | ⟨-, hpost⟩ <;> rw [hpost]
      · exact ⟨hlike.registry, hlike.objects, hlike.faults⟩
      · exact ⟨rfl, rfl, rfl⟩

/-- The run of a single call, with what is known of a reported object. -/
theorem takes_issue {good : Option RemoteObject → Prop}
    (hoperation : (ofMethod? schema.toDeclaration call.method call.arguments).isSome)
    (hgood : ∀ operation result after,
      ofMethod? schema.toDeclaration call.method call.arguments = some operation →
        operation.perform schema.toDeclaration entries call.arguments = .ok (result, after) →
          good (some (Response.object schema.toDeclaration (fun _ ↦ true)
            (schema.toDeclaration.identityOfCall call) (resultBody result)))) :
    Takes schema directory entries [call] good
      (Exchange.run transport (issue schema.toDeclaration false call) directory) := by
  have hissue := run_issue hschema hregistry hentries hoperation
  have hposted : (Exchange.run transport (issue schema.toDeclaration false call) directory).1.posted =
      [call] := by rw [run_issue_eq]
  generalize Exchange.run transport (issue schema.toDeclaration false call) directory = issued
    at hissue hposted ⊢
  obtain ⟨⟨outcome, events, posted⟩, next⟩ := issued
  simp only at hissue hposted
  obtain rfl := hposted
  rcases hissue with ⟨hfault, operation, result, after, hoperation, hperform, rfl, hlike⟩ |
    ⟨hrefused, ⟨failure, rfl⟩, hlike⟩
  · refine ⟨⟨after, .step hfault ?_ .done, hlike⟩, ?_⟩
    · unfold carryOut?
      rw [hoperation, Option.bind_some, hperform]
      rfl
    · rintro _ ⟨⟩
      exact hgood operation result after hoperation hperform
  · exact ⟨⟨entries, .refused failure hrefused, hlike⟩, fun _ h ↦ by simp at h⟩

/-- Calls that are posted one after the other take their course. -/
theorem takes_issueAll {calls : List RemoteCall}
    (hcalls : ∀ call ∈ calls, (ofMethod? schema.toDeclaration call.method call.arguments).isSome)
    (last : Option RemoteObject) :
    Takes schema directory entries calls (fun _ ↦ True)
      (Exchange.run transport (issueAll schema.toDeclaration false last calls) directory) := by
  induction calls generalizing directory entries last with
  | nil => exact .done hentries trivial
  | cons call rest ih =>
    have hfirst : Takes schema directory entries [call] (fun _ ↦ True)
        (Exchange.run transport (issue schema.toDeclaration false call) directory) :=
      takes_issue hschema hregistry hentries (hcalls call List.mem_cons_self) fun _ _ _ _ _ ↦ trivial
    apply hfirst.bind hregistry
    intro reported _ next middle hregistry' hentries'
    exact ih hregistry' hentries' (fun other hother ↦ hcalls other (List.mem_cons_of_mem _ hother)) _

end Ensure

end DirectoryReconcile
