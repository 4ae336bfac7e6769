import DirectoryReconcile.Proofs.Ensure.Plan

/-!
# Calls that are due

The calls that a run posts after its search, told from the scalars that the object stores. The
object as it is found makes no other difference.
-/

namespace DirectoryReconcile

namespace Ensure

open Declaration Entry Difference

variable {declaration : Declaration} {desired : DesiredState} {held : Option Entry}
  {spec : AttributeSpec} {identity : Identity} {texts : List String}
  {allowed : String → Scalar → Prop} {action : Action} {changes : ChangeSet}

/-- An object is created when there is none and else changed. -/
def actionOn (held : Option Entry) : Action := if held.isNone then .add else .modify

theorem actionOn_cases (held : Option Entry) : actionOn held = .add ∨ actionOn held = .modify := by
  cases held
  · exact .inl rfl
  · exact .inr rfl

theorem actionOn_map (change : Entry → Entry) (held : Option Entry) :
    actionOn (held.map change) = actionOn held := by
  unfold actionOn
  rw [Option.isNone_map]

theorem actionOn_of_isSome (h : held.isSome) : actionOn held = .modify := by
  obtain ⟨entry, rfl⟩ := Option.isSome_iff_exists.1 h
  rfl

/-- Of an attribute that the action does not write, an object stores nothing or what the request
has for it. -/
def Writable (declaration : Declaration) (desired : DesiredState) (held : Option Entry) : Prop :=
  ∀ spec ∈ declaration.attributes, ∀ scalars, asked desired spec = some scalars →
    spec.appliesTo (actionOn held) = false →
      stock held spec = [] ∨ (stock held spec).headD .null = scalars.headD .null

/-- The call that brings the flag of an object to the forced one, if it differs. -/
def flagCall (declaration : Declaration) (identity : Identity) (state : TargetState)
    (held : Option Entry) : Option RemoteCall :=
  match forcedFlag declaration state with
  | none => none
  | some (enabled, _) =>
    if enabledIn declaration held = enabled then none
    else some (.plain
      (if enabled then declaration.methods.enable else declaration.methods.disable)
      (declaration.positional identity))

/-- The calls for the changes of an object. -/
def callsOf (declaration : Declaration) (desired : DesiredState) (identity : Identity)
    (held : Option Entry) (changes : ChangeSet) : List RemoteCall :=
  (primaryCall declaration identity (actionOn held) changes).toList ++
    ((flagCall declaration identity desired.state held).toList ++
      listCalls declaration identity (afterPrimary declaration (actionOn held) changes))

/-- The calls that a run posts after its search for an object. -/
inductive Due (declaration : Declaration) (desired : DesiredState) (identity : Identity) :
    Option Entry → List RemoteCall → Prop
  | gone (hstate : desired.state = .absent) : Due declaration desired identity none []
  | whole {entry : Entry} (hstate : desired.state = .absent)
      (hlists : desired.hasLists declaration = false) :
    Due declaration desired identity (some entry) [removeCall declaration identity]
  | changes {held : Option Entry} {changes : ChangeSet}
      (hstate : desired.state = .absent → held.isSome ∧ desired.hasLists declaration = true)
      (hwritable : desired.state ≠ .absent → Writable declaration desired held)
      (hplanned : Planned declaration desired (actionOn held) held changes) :
    Due declaration desired identity held (callsOf declaration desired identity held changes)

theorem enableCall_eq {object : RemoteObject} {state : TargetState}
    (h : declaration.isEnabled object = .ok (enabledIn declaration held)) :
    enableCall declaration identity state object =
      .ok (flagCall declaration identity state held) := by
  unfold enableCall
  rw [flagCall]
  cases forcedFlag declaration state with
  | none => rfl
  | some forced =>
    simp only [h, bind, Except.bind, pure, Except.pure]
    split <;> rfl

variable (regular : declaration.Regular)

include regular

theorem Planned.unique {changes' : ChangeSet} (h : Planned declaration desired action held changes)
    (h' : Planned declaration desired action held changes') : changes = changes' := by
  have hscalars : changes.scalars = changes'.scalars :=
    dict_ext regular (fun spec hspec ↦ (h.scalars spec hspec).trans (h'.scalars spec hspec).symm)
      (fun name hname ↦ (h.undeclared name hname).2.2) fun name hname ↦ (h'.undeclared name hname).2.2
  have hadds : changes.listAdds = changes'.listAdds :=
    dict_ext regular (fun spec hspec ↦ (h.adds spec hspec).trans (h'.adds spec hspec).symm)
      (fun name hname ↦ (h.undeclared name hname).1) fun name hname ↦ (h'.undeclared name hname).1
  have hremoves : changes.listRemoves = changes'.listRemoves :=
    dict_ext regular (fun spec hspec ↦ (h.removes spec hspec).trans (h'.removes spec hspec).symm)
      (fun name hname ↦ (h.undeclared name hname).2.1) fun name hname ↦ (h'.undeclared name hname).2.1
  cases changes
  cases changes'
  simp_all

variable (valid : Valid declaration desired identity texts) {object : RemoteObject}
  (shows : Shows declaration held object)

include valid shows

theorem Shows.checkApplicability_iff :
    checkApplicability declaration object desired (actionOn held) = .ok () ↔
      Writable declaration desired held := by
  have hcheck {spec : AttributeSpec} {scalars : List Scalar} {raw : AttrValue}
      (hasks : Asks declaration desired spec scalars)
      (hraw : desired.attributes.get? spec.name = some raw) :
      checkWritable declaration object (actionOn held) spec.name raw = .ok () ↔
        (spec.appliesTo (actionOn held) = false →
          stock held spec = [] ∨ (stock held spec).headD .null = scalars.headD .null) := by
    obtain ⟨raw', hraw', hcanonical⟩ := hasks.canonical
    cases hraw.symm.trans hraw'
    unfold checkWritable
    rw [regular.attribute?_of_mem hasks.mem]
    simp only [hasks.identity, hasks.unflagged, Bool.false_or, Bool.or_false]
    cases happlies : spec.appliesTo (actionOn held) with
    | true => simp
    | false =>
      have hscalar : spec.isList = false := by
        by_contra hlist
        obtain ⟨-, -, hadd, hmodify⟩ := regular.list_text spec hasks.mem (by simpa using hlist)
        rcases actionOn_cases held with haction | haction <;> simp_all
      simp only [Bool.false_eq_true, if_false, true_implies]
      rcases shows.declared spec hasks.mem with ⟨hempty, hnone⟩ | ⟨hne, raw', hget, hread⟩
      · simp [hnone, hempty]
      · rw [AttributeSpec.valueOf_of_not_isList hscalar] at hread hcanonical
        simp only [hget, AttributeSpec.normalize_eq_ok_iff.2 hread,
          AttributeSpec.normalize_eq_ok_iff.2 hcanonical, bind, Except.bind, sameValue, hne,
          false_or, decide_eq_true_eq, AttrValue.scalar.injEq]
        split
        next heq => exact iff_of_true rfl heq.symm
        next hdiffers => exact iff_of_false (by simp) fun heq ↦ hdiffers heq.symm
  unfold checkApplicability
  rw [forM_eq_ok]
  constructor
  · intro h spec hspec scalars hasked
    have hasks := asks_of_asked valid regular hspec hasked
    obtain ⟨raw, hraw, -⟩ := hasks.canonical
    exact (hcheck hasks hraw).1 (h (spec.name, raw) (desired.attributes.mem_entries_iff.2 hraw))
  · rintro h ⟨name, raw⟩ hentry
    have hraw := desired.attributes.mem_entries_iff.1 hentry
    obtain ⟨spec, scalars, rfl, hasks⟩ := valid.asks name raw hraw
    exact (hcheck hasks hraw).2 (h spec hasks.mem scalars hasks.asked_eq)

/-- What is planned for an object as it is found. -/
theorem Shows.plan_iff (hheld : ∀ entry ∈ held, entry.Sound declaration allowed) :
    plan declaration desired object = .ok changes ↔
      (desired.state ≠ .absent → Writable declaration desired held) ∧
        Planned declaration desired (actionOn held) held changes := by
  have haction : actionFor object = actionOn held := shows.actionFor_eq regular hheld
  obtain ⟨current, hcurrent, hviews⟩ := shows.canonicalCurrent regular (actionOn held)
    (forcedFlag declaration desired.state).isSome
  have hplanned := planned_changes regular valid hviews (actionOn_cases held) hheld
  rw [plan_eq_ok regular valid, haction, shows.checkApplicability_iff regular valid, hcurrent]
  refine and_congr_right fun _ ↦ ⟨?_, fun h ↦ ⟨current, rfl, h.unique regular hplanned⟩⟩
  rintro ⟨_, ⟨⟩, rfl⟩
  exact hplanned

theorem Shows.exists_plan (hheld : ∀ entry ∈ held, entry.Sound declaration allowed)
    (hwritable : Writable declaration desired held) :
    ∃ changes, plan declaration desired object = .ok changes := by
  obtain ⟨current, -, hviews⟩ := shows.canonicalCurrent regular (actionOn held)
    (forcedFlag declaration desired.state).isSome
  exact ⟨_, (shows.plan_iff regular valid hheld).2
    ⟨fun _ ↦ hwritable, planned_changes regular valid hviews (actionOn_cases held) hheld⟩⟩

end Ensure

end DirectoryReconcile
