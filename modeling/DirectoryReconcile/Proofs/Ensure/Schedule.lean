import DirectoryReconcile.Proofs.Ensure.Calls
import DirectoryReconcile.Proofs.Ensure.Leading

/-!
# Schedules

What follows the search is the removal of the whole object, or its changes in one order: the call
that creates the object or assigns its scalars, the call that sets the flag, the calls that add list
values and the calls that remove them. This holds for any accepted declaration.
-/

namespace DirectoryReconcile

/-- The calls after the search, by the part that they have in a run. -/
inductive Schedule where
  | removal (call : RemoteCall)
  | changes (primary flag : Option RemoteCall) (additions removals : List RemoteCall)

namespace Ensure

/-- A call of a method that takes list values, or one that adds or removes them by assignments. -/
inductive IsListCall (declaration : Declaration) (adding : Bool) (call : RemoteCall) : Prop
  | routed {spec : AttributeSpec} {route : ListRoute} (hspec : spec ∈ declaration.attributes)
      (hroute : spec.route = some route) (hmethod : call.method = route.method adding)
  | assigned (hmethod : call.method = declaration.methods.modify)
      (hitem : call.item.contains (if adding then "addattr" else "delattr") = true)

/-- The additions or the removals of a run: no two calls of one method, in ascending order. -/
structure IsPhase (declaration : Declaration) (adding : Bool) (calls : List RemoteCall) : Prop where
  ascending : calls.Pairwise (·.method < ·.method)
  lists : ∀ call ∈ calls, IsListCall declaration adding call

/-- The call that sets the flag that a state forces. -/
def forcedCall (declaration : Declaration) (identity : Identity) (state : TargetState) :
    Option RemoteCall :=
  (Difference.forcedFlag declaration state).map fun forced ↦
    .plain (if forced.1 then declaration.methods.enable else declaration.methods.disable)
      (declaration.positional identity)

/-- The schedule of these changes to a found object, with this call for the flag. -/
def changeSchedule (declaration : Declaration) (identity : Identity) (found : RemoteObject)
    (changes : ChangeSet) (flag : Option RemoteCall) : Schedule :=
  let left := afterPrimary declaration (actionFor found) changes
  .changes (primaryCall declaration identity (actionFor found) changes) flag
    (phaseCalls declaration identity true left.listAdds)
    (phaseCalls declaration identity false left.listRemoves)

/-- The schedule for a found object, with this call for the flag. -/
def scheduleOf (declaration : Declaration) (desired : DesiredState) (identity : Identity)
    (found : RemoteObject) (flag : Option RemoteCall) : Except Failure Schedule :=
  if desired.state = .absent && found.isEmpty then .ok (.changes none none [] [])
  else if desired.state = .absent && !desired.hasLists declaration then
    .ok (.removal (removeCall declaration identity))
  else (plan declaration desired found).map fun changes ↦
    changeSchedule declaration identity found changes flag

end Ensure

namespace Schedule

open Ensure

/-- The calls in the order in which they are posted. -/
def calls : Schedule → List RemoteCall
  | .removal call => [call]
  | .changes primary flag additions removals =>
    primary.toList ++ flag.toList ++ (additions ++ removals)

/-- The call that creates the object or assigns its scalars. -/
def primary : Schedule → Option RemoteCall
  | .removal _ => none
  | .changes primary _ _ _ => primary

/-- The calls that a request may lead to, by its state and the object found. -/
inductive Fits (declaration : Declaration) (desired : DesiredState) (found : RemoteObject) :
    Schedule → Prop
  | removal {call : RemoteCall} (hstate : desired.state = .absent)
      (hfound : found.isEmpty = false) (hlists : desired.hasLists declaration = false)
      (hmethod : call.method = declaration.methods.remove) :
    Fits declaration desired found (.removal call)
  | changes {primary flag : Option RemoteCall} {additions removals : List RemoteCall}
      (hprimary : ∀ call ∈ primary, desired.state ≠ .absent ∧ call.method =
        if found.isEmpty then declaration.methods.add else declaration.methods.modify)
      (hflag : ∀ call ∈ flag,
        desired.state = .enabled ∧ call.method = declaration.methods.enable ∨
          desired.state = .disabled ∧ call.method = declaration.methods.disable)
      (hadditions : IsPhase declaration true additions)
      (hadds : additions ≠ [] → desired.state ≠ .absent)
      (hremovals : IsPhase declaration false removals)
      (hremoves : removals ≠ [] → desired.state = .exact ∨ desired.state = .absent) :
    Fits declaration desired found (.changes primary flag additions removals)

theorem fits_nothing (declaration : Declaration) (desired : DesiredState) (found : RemoteObject) :
    Fits declaration desired found (.changes none none [] []) :=
  .changes (by simp) (by simp) ⟨.nil, by simp⟩ (by simp) ⟨.nil, by simp⟩ (by simp)

/-- Two schedules are the same but for the call that sets the flag. That one may be left out of one
of them, if a call that creates or modifies the object comes before it. -/
inductive Agrees : Schedule → Schedule → Prop
  | removal (call : RemoteCall) : Agrees (.removal call) (.removal call)
  | changes {primary flag flag' : Option RemoteCall} (additions removals : List RemoteCall)
      (hflag : flag = flag' ∨ primary.isSome ∧ (flag = none ∨ flag' = none)) :
    Agrees (.changes primary flag additions removals) (.changes primary flag' additions removals)

/-- Schedules that agree have calls or have none. -/
theorem Agrees.isEmpty_calls {first second : Schedule} (h : Agrees first second) :
    first.calls.isEmpty = second.calls.isEmpty := by
  cases h with
  | removal call => rfl
  | changes additions removals hflag =>
    rcases hflag with rfl | ⟨hprimary, -⟩
    · rfl
    · obtain ⟨call, rfl⟩ := Option.isSome_iff_exists.1 hprimary
      rfl

end Schedule

namespace Ensure

open Declaration Difference

variable {declaration : Declaration} {desired : DesiredState} {identity : Identity}
  {found : RemoteObject} {changes : ChangeSet} {call : RemoteCall} {flag : Option RemoteCall}
  {schedule : Schedule} {adding : Bool}

/-! ## The parts of a schedule -/

/-- What a call of a phase has of its method and of the arguments that all its calls start with. -/
structure InPhase (declaration : Declaration) (positional : List Json) (adding : Bool)
    (method : String) (call : RemoteCall) : Prop where
  method_eq : call.method = method
  leads : positional <+: call.positional
  isList : IsListCall declaration adding call
  /-- The values come on top of these arguments. -/
  loaded : ∀ other, call ≠ .plain other positional

theorem ne_plain_of_item {method : String} {positional : List Json} (h : call.item ≠ ∅) :
    call ≠ .plain method positional := by
  rintro rfl
  exact h rfl

/-- Values are put into the call that a method has, or into a first one. -/
theorem getD_plain {positional : List Json} {method : String} {call? : Option RemoteCall}
    (h : ∀ call, call? = some call → InPhase declaration positional adding method call) :
    (call?.getD (.plain method positional)).method = method ∧
      positional <+: (call?.getD (.plain method positional)).positional := by
  cases call? with
  | none => exact ⟨rfl, List.prefix_refl _⟩
  | some call => exact ⟨(h call rfl).method_eq, (h call rfl).leads⟩

theorem inPhase_addRouted {positional : List Json} {calls : Dict RemoteCall}
    (hcalls : ∀ method call, calls.get? method = some call →
      InPhase declaration positional adding method call)
    (entry : String × List Scalar) {method : String}
    (h : (addRouted declaration positional adding calls entry).get? method = some call) :
    InPhase declaration positional adding method call := by
  unfold addRouted at h
  split at h
  next => exact hcalls method call h
  next spec hattribute =>
    split at h
    next => exact hcalls method call h
    next route hroute =>
      rw [Dict.get?_insert] at h
      split at h
      next heq =>
        obtain rfl := Option.some.inj h
        subst heq
        have hspec : spec ∈ declaration.attributes := List.mem_of_find?_eq_some hattribute
        obtain ⟨hmethod, hleads⟩ := getD_plain fun call hcall ↦ hcalls _ call hcall
        unfold place
        cases route.style with
        | keyword =>
          exact ⟨hmethod, hleads, .routed hspec hroute hmethod,
            fun _ ↦ ne_plain_of_item (Dict.insert_ne_empty _ _ _)⟩
        | positional =>
          refine ⟨hmethod, hleads.trans (List.prefix_append _ _), .routed hspec hroute hmethod,
            fun other heq ↦ ?_⟩
          have hlength : (_ ++ [spec.encode (.list entry.2)]).length = positional.length :=
            congrArg (fun call ↦ call.positional.length) heq
          have hle := hleads.length_le
          rw [List.length_append, List.length_singleton] at hlength
          omega
      next => exact hcalls method call h

theorem inPhase_routedCalls {positional : List Json} {lists : Dict (List Scalar)} {method : String}
    (h : (routedCalls declaration positional adding lists).get? method = some call) :
    InPhase declaration positional adding method call := by
  unfold routedCalls at h
  generalize lists.entries = entries at h
  induction entries using List.reverseRecOn generalizing method call with
  | nil => simp at h
  | append_singleton entries entry ih =>
    rw [List.foldl_append, List.foldl_cons, List.foldl_nil] at h
    exact inPhase_addRouted (fun _ _ hold ↦ ih hold) entry h

theorem inPhase_phaseTable {lists : Dict (List Scalar)} {method : String}
    (h : (phaseTable declaration identity adding lists).get? method = some call) :
    InPhase declaration (declaration.positional identity) adding method call := by
  unfold phaseTable at h
  split at h
  next => exact inPhase_routedCalls h
  next =>
    simp only [Dict.get?_insert] at h
    split at h
    next heq =>
      obtain rfl := Option.some.inj h
      subst heq
      -- The assignments join the values of lists that the same method takes, if there are any.
      obtain ⟨hmethod, hleads⟩ := getD_plain fun call ↦ inPhase_routedCalls
      refine ⟨hmethod, hleads, .assigned hmethod ?_,
        fun _ ↦ ne_plain_of_item (Dict.insertMany_ne_empty _ (.inr (by simp)))⟩
      rw [Dict.contains, Dict.get?_insertMany_of_mem _ ?_ List.mem_cons_self, Option.isSome_some]
      cases adding <;> simp
    next => exact inPhase_routedCalls h

theorem isPhase_phaseCalls (declaration : Declaration) (identity : Identity) (adding : Bool)
    (lists : Dict (List Scalar)) :
    IsPhase declaration adding (phaseCalls declaration identity adding lists) := by
  have hentry : ∀ entry ∈ (phaseTable declaration identity adding lists).entries,
      InPhase declaration (declaration.positional identity) adding entry.1 entry.2 :=
    fun entry hentry ↦ inPhase_phaseTable ((Dict.mem_entries_iff _).1 hentry)
  rw [phaseCalls_eq]
  constructor
  · refine List.pairwise_map.2 ((Dict.ascending _).imp_of_mem fun {a b} ha hb h ↦ ?_)
    rwa [(hentry a ha).method_eq, (hentry b hb).method_eq]
  · intro call hcall
    obtain ⟨entry, hmem, rfl⟩ := List.mem_map.1 hcall
    exact (hentry entry hmem).isList

theorem prefix_of_mem_phaseCalls {lists : Dict (List Scalar)}
    (h : call ∈ phaseCalls declaration identity adding lists) :
    declaration.positional identity <+: call.positional := by
  rw [phaseCalls_eq] at h
  obtain ⟨method, hget⟩ := (Dict.mem_values_iff _).1 h
  exact (inPhase_phaseTable hget).leads

theorem ne_plain_of_mem_phaseCalls {lists : Dict (List Scalar)} (method : String)
    (h : call ∈ phaseCalls declaration identity adding lists) :
    call ≠ .plain method (declaration.positional identity) := by
  rw [phaseCalls_eq] at h
  obtain ⟨own, hget⟩ := (Dict.mem_values_iff _).1 h
  exact (inPhase_phaseTable hget).loaded method

theorem phaseCalls_empty (declaration : Declaration) (identity : Identity) (adding : Bool) :
    phaseCalls declaration identity adding ∅ = [] := rfl

theorem compute_of_plan (hplan : plan declaration desired found = .ok changes) :
    ∃ all, compute declaration found desired (actionFor found) = .ok all ∧
      changes = withoutFlag declaration desired.state all := by
  unfold plan at hplan
  simp only at hplan
  split at hplan
  · obtain ⟨-, -, hplan⟩ := bind_eq_ok.1 hplan
    obtain ⟨all, hall, hplan⟩ := bind_eq_ok.1 hplan
    exact ⟨all, hall, (Except.ok.inj hplan).symm⟩
  · obtain ⟨all, hall, hplan⟩ := bind_eq_ok.1 hplan
    exact ⟨all, hall, (Except.ok.inj hplan).symm⟩

/-- Nothing is assigned or added to reach absence, and values are removed for two states only. -/
theorem changes_of_plan (hplan : plan declaration desired found = .ok changes) :
    (desired.state = .absent → changes.scalars = ∅ ∧ changes.listAdds = ∅) ∧
      (changes.listRemoves = ∅ ∨ desired.state = .exact ∨ desired.state = .absent) := by
  obtain ⟨all, hall, rfl⟩ := compute_of_plan hplan
  obtain ⟨⟨current, wanted⟩, -, hall⟩ := bind_eq_ok.1 hall
  cases Except.ok.inj hall
  unfold withoutFlag
  cases hstate : desired.state with
  | absent => exact ⟨fun _ ↦ ⟨rfl, rfl⟩, .inr (.inr rfl)⟩
  | exact => exact ⟨by simp, .inr (.inl rfl)⟩
  | present => exact ⟨by simp, .inl rfl⟩
  | enabled | disabled =>
    refine ⟨by simp, .inl ?_⟩
    split <;> rfl

theorem creates_of_found (hfound : found.isEmpty = false) :
    creates declaration (actionFor found) = false := by
  simp [creates, actionFor, hfound]

theorem primaryCall_of_absent (identity : Identity)
    (hplan : plan declaration desired found = .ok changes) (hstate : desired.state = .absent)
    (hfound : found.isEmpty = false) :
    primaryCall declaration identity (actionFor found) changes = none := by
  unfold primaryCall
  rw [((changes_of_plan hplan).1 hstate).1, creates_of_found hfound]
  rfl

theorem listAdds_of_absent (hplan : plan declaration desired found = .ok changes)
    (hstate : desired.state = .absent) (hfound : found.isEmpty = false) :
    (afterPrimary declaration (actionFor found) changes).listAdds = ∅ := by
  unfold afterPrimary
  rw [creates_of_found hfound, if_neg Bool.false_ne_true, ((changes_of_plan hplan).1 hstate).2]

theorem enableCall_eq_ok {object : RemoteObject} {state : TargetState}
    (h : enableCall declaration identity state object = .ok flag) :
    flag = none ∨ flag = forcedCall declaration identity state := by
  unfold enableCall at h
  unfold forcedCall
  split at h
  next => exact .inl (Except.ok.inj h).symm
  next enabled spec hforced =>
    obtain ⟨stored, -, h⟩ := bind_eq_ok.1 h
    rw [hforced]
    split at h
    · exact .inl (Except.ok.inj h).symm
    · exact .inr (Except.ok.inj h).symm

theorem mem_forcedCall {state : TargetState} (h : call ∈ forcedCall declaration identity state) :
    call.positional = declaration.positional identity ∧
      (state = .enabled ∧ call.method = declaration.methods.enable ∨
        state = .disabled ∧ call.method = declaration.methods.disable) := by
  obtain ⟨⟨enabled, spec⟩, hforced, rfl⟩ := Option.map_eq_some_iff.1 h
  obtain ⟨hstate, -⟩ := forcedFlag_eq_some_iff.1 hforced
  refine ⟨rfl, ?_⟩
  cases state <;> simp_all [TargetState.forcedEnable, RemoteCall.plain]

/-! ## Whole schedules -/

/-- The ways to a schedule: there is nothing to remove, the object is removed, or it is changed. -/
theorem scheduleOf_cases (h : scheduleOf declaration desired identity found flag = .ok schedule) :
    schedule = .changes none none [] [] ∨
      (desired.state = .absent ∧ found.isEmpty = false ∧ desired.hasLists declaration = false ∧
        schedule = .removal (removeCall declaration identity)) ∨
      ∃ changes, plan declaration desired found = .ok changes ∧
        (desired.state = .absent → found.isEmpty = false) ∧
        schedule = changeSchedule declaration identity found changes flag := by
  unfold scheduleOf at h
  split at h
  next => exact .inl (Except.ok.inj h).symm
  next hgone =>
    have hfound : desired.state = .absent → found.isEmpty = false := by simpa using hgone
    split at h
    next hwhole =>
      obtain ⟨hstate, hlists⟩ : desired.state = .absent ∧ desired.hasLists declaration = false := by
        simpa using hwhole
      exact .inr (.inl ⟨hstate, hfound hstate, hlists, (Except.ok.inj h).symm⟩)
    next =>
      obtain ⟨changes, hplan, rfl⟩ := map_eq_ok.1 h
      exact .inr (.inr ⟨changes, hplan, hfound, rfl⟩)

section

variable (hflag : flag = none ∨ flag = forcedCall declaration identity desired.state)
  (h : scheduleOf declaration desired identity found flag = .ok schedule)

include hflag h

theorem fits_of_scheduleOf : schedule.Fits declaration desired found := by
  rcases scheduleOf_cases h with rfl | ⟨hstate, hfound, hlists, rfl⟩ | ⟨changes, hplan, hfound, rfl⟩
  · exact Schedule.fits_nothing declaration desired found
  · exact .removal hstate hfound hlists rfl
  · refine .changes (fun call hcall ↦ ⟨fun hstate ↦ ?_, ?_⟩) (fun call hcall ↦ ?_)
      (isPhase_phaseCalls _ _ _ _) (fun hadds hstate ↦ hadds ?_) (isPhase_phaseCalls _ _ _ _)
      (fun hremoves ↦ ?_)
    · rw [primaryCall_of_absent identity hplan hstate (hfound hstate)] at hcall
      simp at hcall
    · rw [(primaryCall_eq_some hcall).1, actionFor]
      cases found.isEmpty <;> rfl
    · rcases hflag with rfl | rfl
      · simp at hcall
      · exact (mem_forcedCall hcall).2
    · rw [listAdds_of_absent hplan hstate (hfound hstate), phaseCalls_empty]
    · refine (changes_of_plan hplan).2.resolve_left fun hnone ↦ hremoves ?_
      rw [afterPrimary_listRemoves, hnone, phaseCalls_empty]

theorem prefix_of_mem_schedule (hcall : call ∈ schedule.calls) :
    declaration.positional identity <+: call.positional := by
  rcases scheduleOf_cases h with rfl | ⟨-, -, -, rfl⟩ | ⟨changes, -, -, rfl⟩
  · simp [Schedule.calls] at hcall
  · exact List.mem_singleton.1 hcall ▸ List.prefix_refl _
  · simp only [changeSchedule, Schedule.calls, List.mem_append, Option.mem_toList] at hcall
    rcases hcall with (hcall | hcall) | hcall | hcall
    · obtain ⟨rfl, -⟩ := primaryCall_eq_some hcall
      exact List.prefix_refl _
    · rcases hflag with rfl | rfl
      · simp at hcall
      · exact (mem_forcedCall hcall).1 ▸ List.prefix_refl _
    · exact prefix_of_mem_phaseCalls hcall
    · exact prefix_of_mem_phaseCalls hcall

end

/-- Schedules for one object agree, if they do not leave the flag to what a call replied. -/
theorem agrees_of_scheduleOf {flag' : Option RemoteCall} {other : Schedule}
    (hflag : flag = none ∨ flag = forcedCall declaration identity desired.state)
    (hflag' : flag' = none ∨ flag' = forcedCall declaration identity desired.state)
    (h : scheduleOf declaration desired identity found flag = .ok schedule)
    (h' : scheduleOf declaration desired identity found flag' = .ok other)
    (hfirst : schedule.primary = none → other.primary = none → flag = flag') :
    schedule.Agrees other := by
  unfold scheduleOf at h h'
  split at h
  next hgone =>
    rw [if_pos hgone] at h'
    cases Except.ok.inj h
    cases Except.ok.inj h'
    exact .changes _ _ (.inl rfl)
  next hgone =>
    rw [if_neg hgone] at h'
    split at h
    next hwhole =>
      rw [if_pos hwhole] at h'
      cases Except.ok.inj h
      cases Except.ok.inj h'
      exact .removal _
    next hwhole =>
      rw [if_neg hwhole] at h'
      obtain ⟨changes, hplan, rfl⟩ := map_eq_ok.1 h
      obtain ⟨changes', hplan', rfl⟩ := map_eq_ok.1 h'
      cases hplan.symm.trans hplan'
      refine .changes _ _ ?_
      cases hprimary : primaryCall declaration identity (actionFor found) changes with
      | none => exact .inl (hfirst hprimary hprimary)
      | some call =>
        rcases hflag with rfl | rfl
        · exact .inr ⟨rfl, .inl rfl⟩
        · rcases hflag' with rfl | rfl
          · exact .inr ⟨rfl, .inr rfl⟩
          · exact .inl rfl

end Ensure

end DirectoryReconcile
