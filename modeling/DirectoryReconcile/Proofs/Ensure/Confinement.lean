import DirectoryReconcile.Proofs.Directory.Alone

/-!
# Confined exchanges

A run of a request searches for the object that the request names and acts on that object only. So
it runs in a directory as it would in a world with this object alone.
-/

namespace DirectoryReconcile

variable {allowance : Allowance} {directory : Directory} {schema : ObjectSchema}
  {texts : List String} {α β : Type}

namespace Exchange

open Directory Ensure

/-- Every call is one operation on the object with this identity or a search for it, and of what a
search reports only that object matters. -/
def Confined (allowance : Allowance) (schema : ObjectSchema) (texts : List String) :
    Exchange α → Prop
  | .done _ => True
  | .fail _ => True
  | .note _ next => next.Confined allowance schema texts
  | .post call next =>
    (∀ reply, (next reply).Confined allowance schema texts) ∧
      (Concerns schema.toDeclaration texts (allowance.holds schema.name texts) call ∨
        ∃ identity, schema.toDeclaration.Spells identity texts ∧
          call = schema.toDeclaration.findCall identity ∧
            ∀ reply reply', SameFind schema.toDeclaration identity reply reply' →
              next reply = next reply')

theorem Confined.bind {exchange : Exchange α} {f : α → Exchange β}
    (h : exchange.Confined allowance schema texts)
    (hf : ∀ result, (f result).Confined allowance schema texts) :
    (exchange.bind f).Confined allowance schema texts := by
  induction exchange with
  | done result => exact hf result
  | fail failure => trivial
  | note event next ih => exact ih h
  | post call next ih =>
    refine ⟨fun reply ↦ ih reply (h.1 reply), h.2.imp id ?_⟩
    rintro ⟨identity, spells, hcall, hnext⟩
    exact ⟨identity, spells, hcall, fun reply reply' hsame ↦
      congrArg (·.bind f) (hnext reply reply' hsame)⟩

theorem Confined.ofExcept_bind {x : Except Failure α} {f : α → Exchange β}
    (hf : ∀ result, x = .ok result → (f result).Confined allowance schema texts) :
    ((ofExcept x).bind f).Confined allowance schema texts := by
  cases x with
  | error failure => trivial
  | ok result => exact hf result rfl

/-- One call of a confined exchange. -/
theorem post_confined (kept : directory.Kept allowance) (hschema : schema ∈ ObjectSchema.builtins)
    {call : RemoteCall} {next : Reply → Exchange α}
    (h : (Exchange.post call next).Confined allowance schema texts) :
    let alone := alone directory.faults schema.toDeclaration (directory.focus schema.name texts)
      call.method call.params
    let posted := directory.post call.method call.params
    next posted.1 = next alone.1 ∧ directory.Turned allowance schema.name texts alone.2 posted.2 ∧
      (next posted.1).Confined allowance schema texts := by
  obtain ⟨hconfined, hconcerns | ⟨identity, spells, hcall, hnext⟩⟩ := h
  · obtain ⟨hreply, hturned⟩ := post_concerns kept hschema hconcerns
    exact ⟨congrArg next hreply, hturned, hconfined _⟩
  · obtain ⟨hsame, hheld, hturned⟩ := post_find kept hschema spells hcall
    exact ⟨hnext _ _ hsame, hheld.symm ▸ hturned, hconfined _⟩

end Exchange

namespace Ensure

open Exchange Directory

variable {desired : DesiredState} {identity : Identity} {calls : List RemoteCall}

theorem confined_exchange {call : RemoteCall} (keep : Json → Bool) (identity : Identity)
    (hcall : Concerns schema.toDeclaration texts (allowance.holds schema.name texts) call) :
    (schema.toDeclaration.exchange call keep identity).Confined allowance schema texts := by
  have hrequest : (request call).Confined allowance schema texts :=
    ⟨fun reply ↦ by cases reply <;> trivial, .inl hcall⟩
  apply hrequest.bind
  intro body
  cases Response.fault? call.method body <;> trivial

theorem confined_find (spells : schema.toDeclaration.Spells identity texts) :
    (schema.toDeclaration.find identity).Confined allowance schema texts := by
  refine ⟨fun reply ↦ ?_, .inr ⟨identity, spells, rfl, ?_⟩⟩
  · cases reply with
    | error error => trivial
    | ok body =>
      simp only [Exchange.bind]
      cases Response.fault? (schema.toDeclaration.findCall identity).method body <;> trivial
  · rintro reply reply' (rfl | ⟨body, body', rfl, rfl, hbody, hbody', hobject⟩)
    · rfl
    · have hmethod : (schema.toDeclaration.findCall identity).method =
          schema.toDeclaration.methods.find := rfl
      simp only [Exchange.bind, hmethod, hbody, hbody', hobject]

theorem confined_issueAll (dryRun : Bool) (last : Option RemoteObject)
    (hcalls : ∀ call ∈ calls,
      Concerns schema.toDeclaration texts (allowance.holds schema.name texts) call) :
    (issueAll schema.toDeclaration dryRun last calls).Confined allowance schema texts := by
  induction calls generalizing last with
  | nil => trivial
  | cons call rest ih =>
    have hissue : (issue schema.toDeclaration dryRun call).Confined allowance schema texts := by
      cases dryRun with
      | true => trivial
      | false =>
        exact (confined_exchange _ _ (hcalls call List.mem_cons_self)).bind fun _ ↦ trivial
    exact hissue.bind fun reported ↦
      ih (reported.or last) fun other hother ↦ hcalls other (List.mem_cons_of_mem _ hother)

variable (hschema : schema ∈ ObjectSchema.builtins)
  (valid : Valid schema.toDeclaration desired identity texts)
  (hallowed : ∀ spec scalars, Asks schema.toDeclaration desired spec scalars → spec.isList = true →
    ∀ v ∈ scalars, allowance.holds schema.name texts spec.name v)

include hschema valid hallowed

theorem confined_apply {found : RemoteObject} {changes : ChangeSet}
    (hcomes : Comes schema.toDeclaration desired changes) :
    (apply schema.toDeclaration desired identity found changes).Confined allowance schema texts := by
  have hregular := ObjectSchema.regular_of_mem_builtins hschema
  refine (confined_issueAll _ _ fun call hcall ↦ ?_).bind fun created ↦
    Confined.ofExcept_bind fun enabling henabling ↦
      (confined_issueAll _ _ fun call hcall ↦ ?_).bind fun flagged ↦
        (confined_issueAll _ _ fun call hcall ↦ ?_).bind fun listed ↦ trivial
  · exact concerns_primaryCall hregular valid hcomes hallowed (Option.mem_toList.1 hcall)
  · rw [Option.mem_toList.1 hcall] at henabling
    exact concerns_enableCall hregular valid henabling
  · exact concerns_listCalls hregular valid (comes_afterPrimary hcomes) hallowed hcall

/-- A run is confined to the object that its request names. -/
theorem confined_run (hvalidate : validate schema.toDeclaration desired = .ok identity) :
    (run schema.toDeclaration desired).Confined allowance schema texts := by
  have hregular := ObjectSchema.regular_of_mem_builtins hschema
  unfold run
  rw [hvalidate]
  apply (confined_find valid.spells).bind
  intro found
  simp only [bind_eq, record, Exchange.bind, Confined]
  split
  · trivial
  split
  · have hissue : (issue schema.toDeclaration desired.dryRun
        (removeCall schema.toDeclaration identity)).Confined allowance schema texts := by
      cases desired.dryRun with
      | true => trivial
      | false => exact (confined_exchange _ _ (concerns_removeCall hregular valid)).bind fun _ ↦ trivial
    exact hissue.bind fun _ ↦ trivial
  · apply Confined.ofExcept_bind
    intro changes hplan
    exact confined_apply hschema valid hallowed (comes_of_plan hregular valid hplan)

end Ensure

namespace Directory

open Exchange Entry

theorem Turned.trans {type : String} {identity : List String} {held held' : Option Entry}
    {middle after : Directory} (h : directory.Turned allowance type identity held middle)
    (h' : middle.Turned allowance type identity held' after) :
    directory.Turned allowance type identity held' after :=
  ⟨h'.kept, h'.faults.trans h.faults, h'.own, fun otherType other hapart ↦ by
    calc after.focus otherType other
      _ = middle.focus otherType other := h'.others otherType other hapart
      _ = directory.focus otherType other := h.others otherType other hapart⟩

/-- A confined exchange runs as it would with its object alone. -/
theorem run_confined (hschema : schema ∈ ObjectSchema.builtins) {exchange : Exchange α}
    (hconfined : exchange.Confined allowance schema texts) (kept : directory.Kept allowance) :
    let alone := run (alone directory.faults schema.toDeclaration) exchange
      (directory.focus schema.name texts)
    (run transport exchange directory).1 = alone.1 ∧
      directory.Turned allowance schema.name texts alone.2 (run transport exchange directory).2 := by
  induction exchange generalizing directory with
  | done result => exact ⟨rfl, .refl kept _ _⟩
  | fail failure => exact ⟨rfl, .refl kept _ _⟩
  | note event next ih =>
    obtain ⟨hrun, hturned⟩ := ih hconfined kept
    exact ⟨congrArg (fun rest ↦ { rest with events := event :: rest.events }) hrun, hturned⟩
  | post call next ih =>
    obtain ⟨hnext, hposted, hrest⟩ := post_confined kept hschema hconfined
    obtain ⟨hrun, hturned⟩ := ih _ hrest hposted.kept
    rw [hposted.own, hposted.faults] at hrun hturned
    simp only [run, transport]
    rw [← hnext]
    exact ⟨congrArg (fun rest ↦ { rest with posted := call :: rest.posted }) hrun,
      hposted.trans hturned⟩

/-- A directory after each of two objects became another one, or none, and nothing else changed. -/
structure TurnedBoth (allowance : Allowance) (leftType rightType : String)
    (leftIdentity rightIdentity : List String) (before : Directory) (left right : Option Entry)
    (after : Directory) : Prop where
  kept : after.Kept allowance
  left_own : after.focus leftType leftIdentity = left
  right_own : after.focus rightType rightIdentity = right
  others : ∀ type other, type ≠ leftType ∨ ¬sameIdentity leftIdentity other →
    type ≠ rightType ∨ ¬sameIdentity rightIdentity other →
      after.focus type other = before.focus type other

variable {left right : ObjectSchema} {leftTexts rightTexts : List String} {held held' : Option Entry}

/-- One side after the other: the second one does not touch the object of the first. -/
theorem Turned.both {middle after : Directory}
    (h : directory.Turned allowance left.name leftTexts held middle)
    (hapart : left.name ≠ right.name ∨ ¬sameIdentity rightTexts leftTexts)
    (h' : middle.Turned allowance right.name rightTexts held' after) :
    directory.TurnedBoth allowance left.name right.name leftTexts rightTexts held held' after where
  kept := h'.kept
  left_own := calc
    after.focus left.name leftTexts
    _ = middle.focus left.name leftTexts := h'.others _ _ hapart
    _ = held := h.own
  right_own := h'.own
  others type other hl hr := calc
    after.focus type other
    _ = middle.focus type other := h'.others type other hr
    _ = directory.focus type other := h.others type other hl

/-- A turn of one side comes before whatever the two sides do afterwards. -/
theorem TurnedBoth.of_left {middle after : Directory} {first : Option Entry}
    (h : directory.Turned allowance left.name leftTexts first middle)
    (hboth : middle.TurnedBoth allowance left.name right.name leftTexts rightTexts held held' after) :
    directory.TurnedBoth allowance left.name right.name leftTexts rightTexts held held' after :=
  ⟨hboth.kept, hboth.left_own, hboth.right_own, fun type other hl hr ↦ by
    calc after.focus type other
      _ = middle.focus type other := hboth.others type other hl hr
      _ = directory.focus type other := h.others type other hl⟩

theorem TurnedBoth.symm {after : Directory}
    (h : directory.TurnedBoth allowance left.name right.name leftTexts rightTexts held held' after) :
    directory.TurnedBoth allowance right.name left.name rightTexts leftTexts held' held after :=
  ⟨h.kept, h.right_own, h.left_own, fun type other hr hl ↦ h.others type other hl hr⟩

theorem TurnedBoth.of_right {middle after : Directory} {second : Option Entry}
    (h : directory.Turned allowance right.name rightTexts second middle)
    (hboth : middle.TurnedBoth allowance left.name right.name leftTexts rightTexts held held' after) :
    directory.TurnedBoth allowance left.name right.name leftTexts rightTexts held held' after :=
  (hboth.symm.of_left h).symm

/-- Two confined exchanges about different objects take turns without noticing each other. -/
theorem interleave_confined (hleft : left ∈ ObjectSchema.builtins)
    (hright : right ∈ ObjectSchema.builtins)
    (hapart : left.name ≠ right.name ∨ ¬sameIdentity leftTexts rightTexts) (turns : List Bool)
    {first : Exchange α} {second : Exchange β} (hfirst : first.Confined allowance left leftTexts)
    (hsecond : second.Confined allowance right rightTexts) (kept : directory.Kept allowance) :
    let firstAlone := run (alone directory.faults left.toDeclaration) first
      (directory.focus left.name leftTexts)
    let secondAlone := run (alone directory.faults right.toDeclaration) second
      (directory.focus right.name rightTexts)
    (interleave transport turns first second directory).1 = (firstAlone.1, secondAlone.1) ∧
      directory.TurnedBoth allowance left.name right.name leftTexts rightTexts firstAlone.2
        secondAlone.2 (interleave transport turns first second directory).2 := by
  have hrightApart : right.name ≠ left.name ∨ ¬sameIdentity leftTexts rightTexts :=
    hapart.imp Ne.symm id
  have hleftApart : left.name ≠ right.name ∨ ¬sameIdentity rightTexts leftTexts :=
    hapart.imp id fun h hsame ↦ h (sameIdentity_symm hsame)
  induction turns generalizing first second directory with
  | nil =>
    obtain ⟨hrun, hturned⟩ := run_confined hleft hfirst kept
    obtain ⟨hrun', hturned'⟩ := run_confined hright hsecond hturned.kept
    rw [hturned.faults, hturned.others _ _ hrightApart] at hrun' hturned'
    exact ⟨Prod.ext hrun hrun', hturned.both hleftApart hturned'⟩
  | cons turn turns ih =>
    cases turn with
    | true =>
      cases first with
      | done result => exact ih hfirst hsecond kept
      | fail failure => exact ih hfirst hsecond kept
      | note event next =>
        have hnext : next.Confined allowance left leftTexts := hfirst
        obtain ⟨hrun, hboth⟩ := ih hnext hsecond kept
        refine ⟨?_, hboth⟩
        exact congrArg (fun both ↦ ({ both.1 with events := event :: both.1.events }, both.2)) hrun
      | post call next =>
        obtain ⟨hnext, hposted, hrest⟩ := post_confined kept hleft hfirst
        obtain ⟨hrun, hboth⟩ := ih hrest hsecond hposted.kept
        rw [hposted.own, hposted.faults, hposted.others _ _ hrightApart] at hrun hboth
        simp only [run, interleave, transport]
        rw [← hnext]
        refine ⟨?_, .of_left hposted hboth⟩
        exact congrArg (fun both ↦ ({ both.1 with posted := call :: both.1.posted }, both.2)) hrun
    | false =>
      cases second with
      | done result => exact ih hfirst hsecond kept
      | fail failure => exact ih hfirst hsecond kept
      | note event next =>
        have hnext : next.Confined allowance right rightTexts := hsecond
        obtain ⟨hrun, hboth⟩ := ih hfirst hnext kept
        refine ⟨?_, hboth⟩
        exact congrArg (fun both ↦ (both.1, { both.2 with events := event :: both.2.events })) hrun
      | post call next =>
        obtain ⟨hnext, hposted, hrest⟩ := post_confined kept hright hsecond
        obtain ⟨hrun, hboth⟩ := ih hfirst hrest hposted.kept
        rw [hposted.own, hposted.faults, hposted.others _ _ hleftApart] at hrun hboth
        simp only [run, interleave, transport]
        rw [← hnext]
        refine ⟨?_, .of_right hposted hboth⟩
        exact congrArg (fun both ↦ (both.1, { both.2 with posted := call :: both.2.posted })) hrun

end Directory

end DirectoryReconcile
