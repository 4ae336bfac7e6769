import DirectoryReconcile.Proofs.Ensure.Runs

/-!
# Goals

What an object is to store in the end, attribute by attribute, told from what it stores now. Every
call that is due leaves the goal as it is, and when no call is due the goal is reached.
-/

namespace DirectoryReconcile

namespace Ensure

open Declaration Entry Difference Operation

variable {declaration : Declaration} {desired : DesiredState} {identity : Identity}
  {texts : List String} {allowed : String → Scalar → Prop} {changes : ChangeSet} {call : RemoteCall}
  {held held' : Option Entry} {result : Json} {spec : AttributeSpec} {rest : List RemoteCall}
  {v : Scalar}

/-- Whether a list is to hold a value in the end. -/
def ListGoal (desired : DesiredState) (held : Option Entry) (spec : AttributeSpec) (v : Scalar) :
    Prop :=
  match desired.state with
  | .present | .enabled | .disabled => v ∈ stock held spec ∨ v ∈ (asked desired spec).getD []
  | .exact => v ∈ (asked desired spec).getD []
  | .absent => v ∈ stock held spec ∧ v ∉ (asked desired spec).getD []

/-- The scalars that an attribute other than a list or the flag is to have in the end. -/
def scalarGoal (declaration : Declaration) (desired : DesiredState) (held : Option Entry)
    (spec : AttributeSpec) : List Scalar :=
  if desired.state = .absent ∨ considers declaration (actionOn held) false spec = false then
    stock held spec
  else (asked desired spec).getD (if desired.state = .exact then [] else stock held spec)

/-- An attribute that is not assigned keeps its scalars. -/
theorem scalarGoal_of_kept
    (h : desired.state = .absent ∨ considers declaration (actionOn held) false spec = false ∨
      desired.state ≠ .exact ∧ asked desired spec = none) :
    scalarGoal declaration desired held spec = stock held spec := by
  unfold scalarGoal
  split
  next => rfl
  next hleft =>
    rw [not_or] at hleft
    obtain ⟨hexact, hasked⟩ := (h.resolve_left hleft.1).resolve_left hleft.2
    rw [hasked, Option.getD_none, if_neg hexact]

theorem scalarGoal_of_asked {scalars : List Scalar} (hstate : desired.state ≠ .absent)
    (hconsiders : considers declaration (actionOn held) false spec = true)
    (hasked : asked desired spec = some scalars) :
    scalarGoal declaration desired held spec = scalars := by
  unfold scalarGoal
  rw [if_neg (by simp [hstate, hconsiders]), hasked, Option.getD_some]

theorem scalarGoal_of_cleared (hexact : desired.state = .exact)
    (hconsiders : considers declaration (actionOn held) false spec = true)
    (hasked : asked desired spec = none) : scalarGoal declaration desired held spec = [] := by
  unfold scalarGoal
  rw [if_neg (by simp [hexact, hconsiders]), hasked, Option.getD_none, if_pos hexact]

/-! ## Calls and goals of lists -/

theorem listGoal_congr (h : ∀ v, v ∈ stock held' spec ↔ v ∈ stock held spec) :
    ListGoal desired held' spec v ↔ ListGoal desired held spec v := by
  rw [ListGoal, ListGoal]
  cases desired.state <;> simp only [h v]

/-- Requested values that a list gains make no difference to its goal. -/
theorem listGoal_of_gained {scalars : List Scalar} (hstate : desired.state ≠ .absent)
    (hasked : asked desired spec = some scalars) (hkept : v ∈ stock held spec → v ∈ stock held' spec)
    (hgained : v ∈ stock held' spec → v ∈ stock held spec ∨ v ∈ scalars) :
    ListGoal desired held' spec v ↔ ListGoal desired held spec v := by
  rw [ListGoal, ListGoal, hasked, Option.getD_some]
  cases hcase : desired.state with
  | present | enabled | disabled =>
    exact ⟨fun h ↦ h.elim hgained .inr, Or.imp_left hkept⟩
  | exact => rfl
  | absent => exact absurd hcase hstate

/-- A list without values to add or to remove holds what it is to hold. -/
theorem listGoal_iff_stock (hadds : addsAt desired held spec = none)
    (hremoves : removesAt desired held spec = none) :
    ListGoal desired held spec v ↔ v ∈ stock held spec := by
  rw [addsAt_eq_none_iff] at hadds
  obtain ⟨hexact, habsent⟩ := removesAt_eq_none_iff.1 hremoves
  have hwanted (hstate : desired.state ≠ .absent) (hv : v ∈ (asked desired spec).getD []) :
      v ∈ stock held spec := by
    cases hasked : asked desired spec with
    | none => simp [hasked] at hv
    | some scalars =>
      rw [hasked, Option.getD_some] at hv
      exact hadds.resolve_left hstate scalars hasked v hv
  unfold ListGoal
  cases hstate : desired.state with
  | present | enabled | disabled =>
    exact ⟨fun h ↦ h.elim id (hwanted (by simp [hstate])), .inl⟩
  | exact => exact ⟨hwanted (by simp [hstate]), hexact hstate v⟩
  | absent =>
    apply and_iff_left_of_imp
    intro hv hrequested
    cases hasked : asked desired spec with
    | none => simp [hasked] at hrequested
    | some scalars =>
      rw [hasked, Option.getD_some] at hrequested
      exact habsent hstate scalars hasked v hrequested hv

variable (regular : declaration.Regular)

include regular

theorem listGoal_after_lists {adding : Bool} {method : String}
    (hplanned : Planned declaration desired (actionOn held) held changes)
    (h : Relisted declaration adding method (listsOf adding changes) held held')
    (hspec : spec ∈ declaration.attributes) (hlist : spec.isList = true) :
    ListGoal desired held' spec v ↔ ListGoal desired held spec v := by
  have hmem := h spec hspec (regular.list_text spec hspec hlist).2.1
  cases adding with
  | true =>
    have hadds : (listsOf true changes).get? spec.name = addsAt desired held spec := by
      unfold listsOf
      rw [if_pos rfl, hplanned.adds spec hspec, if_pos hlist]
    cases hvalues : addsAt desired held spec with
    | none => exact listGoal_congr fun w ↦ by rw [hmem w, hadds, hvalues]; simp [Moved]
    | some values =>
      obtain ⟨hstate, -, -, scalars, hasked, hmemValues⟩ := mem_of_addsAt hvalues
      have hstored := hmem v
      simp only [hadds, hvalues, Moved, if_true, Option.some.injEq, exists_eq_left'] at hstored
      refine listGoal_of_gained hstate hasked (fun hv ↦ hstored.2 (.inl hv)) fun hv ↦ ?_
      exact (hstored.1 hv).imp_right fun hboth ↦ ((hmemValues v).1 hboth.2).1
  | false =>
    have hremoves : (listsOf false changes).get? spec.name = removesAt desired held spec := by
      unfold listsOf
      rw [if_neg Bool.false_ne_true, hplanned.removes spec hspec, if_pos hlist]
    cases hvalues : removesAt desired held spec with
    | none => exact listGoal_congr fun w ↦ by rw [hmem w, hremoves, hvalues]; simp [Moved]
    | some values =>
      obtain ⟨-, -, ⟨hstate, -⟩ | ⟨hstate, scalars, hasked, hmemValues⟩⟩ := mem_of_removesAt hvalues
      · simp only [ListGoal, hstate]
      · have hstored := hmem v
        have hmemV := hmemValues v
        simp only [hremoves, hvalues, Moved, Bool.false_eq_true, if_false, Option.some.injEq,
          exists_eq_left'] at hstored
        simp only [ListGoal, hstate, hasked, Option.getD_some, hstored]
        grind

theorem listGoal_after_primary
    (hplanned : Planned declaration desired (actionOn held) held changes)
    (hcreates : creates declaration (actionOn held) = held.isNone)
    (hstock : ∀ spec ∈ declaration.attributes, spec.identity = false →
      stock held' spec = primaryStock declaration (actionOn held) changes held spec)
    (hspec : spec ∈ declaration.attributes) (hlist : spec.isList = true) :
    ListGoal desired held' spec v ↔ ListGoal desired held spec v := by
  have hstock := hstock spec hspec (regular.list_text spec hspec hlist).2.1
  rw [primaryStock_of_list regular hplanned hspec hlist] at hstock
  split at hstock
  next hinline =>
    obtain rfl : held = none := by simpa [hcreates] using hinline.1
    cases hvalues : addsAt desired none spec with
    | none => exact listGoal_congr fun w ↦ by rw [hstock, hvalues, Option.getD_none]
    | some values =>
      obtain ⟨hstate, -, -, scalars, hasked, hmemValues⟩ := mem_of_addsAt hvalues
      rw [hvalues, Option.getD_some] at hstock
      refine listGoal_of_gained hstate hasked (fun hv ↦ absurd hv List.not_mem_nil) fun hv ↦ ?_
      exact .inr ((hmemValues v).1 (hstock ▸ hv)).1
  next => exact listGoal_congr fun w ↦ by rw [hstock]

/-! ## Calls and goals of other attributes -/

omit regular in
/-- At most one scalar, and not null, is settled by its value. -/
theorem eq_of_headD {scalars : List Scalar} (hshort : scalars.length ≤ 1)
    (hkeeps : ∀ v ∈ scalars, v ≠ .null) :
    (if (scalars.headD .null).isNull then [] else [scalars.headD .null]) = scalars := by
  rcases scalars with - | ⟨v, - | ⟨w, more⟩⟩
  · rfl
  · have hnull : v.isNull = false := by
      have hne := hkeeps v List.mem_cons_self
      cases v <;> simp_all [Scalar.isNull]
    simp [hnull]
  · simp at hshort

theorem stock_ne_null (hheld : ∀ entry ∈ held, entry.Sound declaration allowed)
    (hspec : spec ∈ declaration.attributes) : ∀ v ∈ stock held spec, v ≠ .null := fun v hv ↦ by
  cases held with
  | none => exact absurd hv List.not_mem_nil
  | some entry =>
    have hstocks := (hheld entry rfl).stored.stocks regular hspec (List.ne_nil_of_mem hv)
    exact (hstocks.keeps v hv).ne_null

/-- What is assigned to an attribute makes it what it is to be. -/
theorem assigned_eq_scalarGoal (valid : Valid declaration desired identity texts)
    (hheld : ∀ entry ∈ held, entry.Sound declaration allowed)
    (hspec : spec ∈ declaration.attributes) (hscalar : spec.isList = false) :
    (match assignsAt declaration desired (actionOn held) held spec with
      | some v => if v.isNull then [] else [v]
      | none => stock held spec) = scalarGoal declaration desired held spec := by
  have hstored := eq_of_headD (length_stock_le regular hheld hspec hscalar)
    (stock_ne_null regular hheld hspec)
  by_cases hleft : desired.state = .absent ∨ considers declaration (actionOn held) false spec = false
  · unfold assignsAt
    rw [scalarGoal, if_pos hleft, if_pos hleft]
  · unfold assignsAt
    rw [scalarGoal, if_neg hleft, if_neg hleft]
    cases hasked : asked desired spec with
    | some scalars =>
      have hasks := asks_of_asked valid regular hspec hasked
      have hshort : scalars.length ≤ 1 :=
        hasks.short (AttributeSpec.cardinality_of_not_isList hscalar)
      have hasked := eq_of_headD hshort fun v hv ↦ (hasks.keeps v hv).ne_null
      simp only [Option.getD_some]
      by_cases heq : (stock held spec).headD .null = scalars.headD .null
      · rw [if_pos heq, ← hstored, heq]
        exact hasked
      · rw [if_neg heq]
        exact hasked
    | none =>
      simp only [Option.getD_none]
      by_cases hcleared : desired.state = .exact ∧ stock held spec ≠ []
      · rw [if_pos hcleared, if_pos hcleared.1]
        rfl
      · rw [if_neg hcleared]
        by_cases hexact : desired.state = .exact
        · rw [if_pos hexact]
          exact not_not.1 fun hne ↦ hcleared ⟨hexact, hne⟩
        · rw [if_neg hexact]

/-- An attribute to which nothing is assigned is what it is to be. -/
theorem scalarGoal_eq_stock (valid : Valid declaration desired identity texts)
    (hheld : ∀ entry ∈ held, entry.Sound declaration allowed)
    (hspec : spec ∈ declaration.attributes) (hscalar : spec.isList = false)
    (h : assignsAt declaration desired (actionOn held) held spec = none) :
    scalarGoal declaration desired held spec = stock held spec := by
  rw [← assigned_eq_scalarGoal regular valid hheld hspec hscalar, h]

theorem scalarGoal_after_primary (valid : Valid declaration desired identity texts)
    (hheld : ∀ entry ∈ held, entry.Sound declaration allowed)
    (hheld' : ∀ entry ∈ held', entry.Sound declaration allowed) (hsome : held'.isSome)
    (hplanned : Planned declaration desired (actionOn held) held changes)
    (hstock : ∀ spec ∈ declaration.attributes, spec.identity = false →
      stock held' spec = primaryStock declaration (actionOn held) changes held spec)
    (hspec : spec ∈ declaration.attributes) (hscalar : spec.isList = false)
    (hidentity : spec.identity = false) :
    scalarGoal declaration desired held' spec = scalarGoal declaration desired held spec := by
  obtain ⟨entry, rfl⟩ := Option.isSome_iff_exists.1 hsome
  have hassigned := assignsAt_after_primary regular hplanned hspec hscalar (hstock spec hspec)
  calc scalarGoal declaration desired (some entry) spec
    _ = stock (some entry) spec := scalarGoal_eq_stock regular valid hheld' hspec hscalar hassigned
    _ = primaryStock declaration (actionOn held) changes held spec := hstock spec hspec hidentity
    _ = _ := primaryStock_of_scalar regular hplanned hspec hscalar
    _ = scalarGoal declaration desired held spec :=
      assigned_eq_scalarGoal regular valid hheld hspec hscalar

theorem scalarGoal_congr (hstock : stock held' spec = stock held spec)
    (haction : actionOn held' = actionOn held ∨ declaration.creation = .implicit)
    (hspec : spec ∈ declaration.attributes) (hscalar : spec.isList = false)
    (hidentity : spec.identity = false) :
    scalarGoal declaration desired held' spec = scalarGoal declaration desired held spec := by
  rcases haction with haction | himplicit
  · rw [scalarGoal, scalarGoal, hstock, haction]
  · rcases (regular.implicit_lists himplicit).2 spec hspec with h | ⟨h, -⟩
    · simp [hidentity] at h
    · simp [hscalar] at h

/-! ## Runs and goals -/

omit regular in
/-- When no call is due an object that is to be gone is. -/
theorem Due.eq_none_of_absent (hdue : Due declaration desired identity held [])
    (hstate : desired.state = .absent) (hlists : desired.hasLists declaration = false) :
    held = none := by
  generalize hcalls : ([] : List RemoteCall) = calls at hdue
  cases hdue with
  | gone => rfl
  | whole => simp at hcalls
  | changes hgone => simp [(hgone hstate).2] at hlists

/-- Two objects that are to be the same in the end, apart from a flag that is forced. -/
structure SameGoals (declaration : Declaration) (desired : DesiredState)
    (held held' : Option Entry) : Prop where
  lists : ∀ spec ∈ declaration.attributes, spec.isList = true → ∀ v,
    ListGoal desired held' spec v ↔ ListGoal desired held spec v
  scalars : ∀ spec ∈ declaration.attributes, spec.isList = false → spec.identity = false →
    (declaration.isEnableAttribute spec.name = true →
      forcedFlag declaration desired.state = none) →
      scalarGoal declaration desired held' spec = scalarGoal declaration desired held spec

omit regular in
theorem SameGoals.refl (declaration : Declaration) (desired : DesiredState) (held : Option Entry) :
    SameGoals declaration desired held held :=
  ⟨fun _ _ _ _ ↦ Iff.rfl, fun _ _ _ _ _ ↦ rfl⟩

omit regular in
theorem SameGoals.trans {held'' : Option Entry} (h : SameGoals declaration desired held held')
    (h' : SameGoals declaration desired held' held'') : SameGoals declaration desired held held'' :=
  ⟨fun spec hspec hlist v ↦ (h'.lists spec hspec hlist v).trans (h.lists spec hspec hlist v),
    fun spec hspec hscalar hidentity hflag ↦ (h'.scalars spec hspec hscalar hidentity hflag).trans
      (h.scalars spec hspec hscalar hidentity hflag)⟩

variable (valid : Valid declaration desired identity texts)
  (hallowed : ∀ spec scalars, Asks declaration desired spec scalars → spec.isList = true →
    ∀ v ∈ scalars, allowed spec.name v)
  (hkeeps : desired.state = .absent → desired.hasLists declaration = true)

include valid hallowed

section

include hkeeps

variable (hdistinct : Distinguishes allowed)

include hdistinct

/-- A call that is due leaves the goal as it is, unless it removes the whole object. -/
theorem Due.sameGoals (hnamed : NamedBy texts held)
    (hheld : ∀ entry ∈ held, entry.Sound declaration allowed)
    (hheld' : ∀ entry ∈ held', entry.Sound declaration allowed)
    (hdue : Due declaration desired identity held (call :: rest))
    (h : Answers declaration held call result held') : SameGoals declaration desired held held' := by
  cases hdue.next regular valid hallowed with
  | whole hstate hlists => simp [hkeeps hstate] at hlists
  | primary hstate hwritable hplanned hprimary =>
    obtain ⟨hcreates, entry, verb, rfl, -, hstock⟩ :=
      stock_primaryCall regular valid.spells (hplanned.comes regular valid) hnamed hprimary h
    refine ⟨fun spec hspec hlist v ↦ ?_, fun spec hspec hscalar hidentity _ ↦ ?_⟩
    · exact listGoal_after_primary regular hplanned hcreates hstock hspec hlist
    · exact scalarGoal_after_primary regular valid hheld hheld' rfl hplanned hstock hspec hscalar
        hidentity
  | flag hstate hwritable hplanned hscalars hflag =>
    obtain ⟨hsome, hsome', -, hstock⟩ := stock_flagCall regular valid hnamed hflag h
    obtain ⟨found, rfl⟩ := Option.isSome_iff_exists.1 hsome
    obtain ⟨entry, rfl⟩ := Option.isSome_iff_exists.1 hsome'
    refine ⟨fun spec hspec hlist v ↦ ?_, fun spec hspec hscalar hidentity hunforced ↦ ?_⟩
    · exact listGoal_congr fun w ↦ by rw [hstock spec hspec (regular.list_unflagged hspec hlist)]
    · have hunflagged : declaration.isEnableAttribute spec.name = false := by
        by_contra hflagged
        unfold flagCall at hflag
        rw [hunforced (by simpa using hflagged)] at hflag
        simp at hflag
      exact scalarGoal_congr regular (hstock spec hspec hunflagged) (.inl rfl) hspec hscalar hidentity
  | @lists _ changes adding method _ more hstate hwritable hplanned hscalars hcreates hflag hadds
      hentries =>
    have hcall : (phaseTable declaration identity adding (listsOf adding changes)).get? method =
        some call := (Dict.mem_entries_iff _).1 (by rw [hentries]; exact List.mem_cons_self)
    obtain ⟨hrelisted, hsame⟩ := relisted_of_call regular valid hallowed hdistinct hnamed hheld hheld'
      hplanned hcall h
    have haction := actionOn_after_lists regular valid hnamed hcreates hcall h
    refine ⟨fun spec hspec hlist v ↦ ?_, fun spec hspec hscalar hidentity _ ↦ ?_⟩
    · exact listGoal_after_lists regular hplanned hrelisted hspec hlist
    · exact scalarGoal_congr regular (hsame spec hspec hidentity hscalar) haction hspec hscalar
        hidentity

theorem Due.sameGoals_of_course (idle : declaration.Idle) {entries after : List Entry}
    {calls posted : List RemoteCall} {faults : Dict InjectedFault} {failure? : Option Failure}
    (horderly : Orderly declaration allowed texts entries)
    (hdue : Due declaration desired identity (focus texts entries) calls)
    (hcourse : Course declaration faults entries calls posted failure? after) :
    SameGoals declaration desired (focus texts entries) (focus texts after) := by
  induction hcourse with
  | done | refused => exact .refl _ _ _
  | step hfault hcarried hrest ih =>
    obtain ⟨horderly', hdue', result, hanswers⟩ :=
      hdue.step regular idle valid hallowed hdistinct horderly hcarried
    exact (hdue.sameGoals regular valid hallowed hkeeps hdistinct (namedBy_focus texts _)
      horderly.sound horderly'.sound hanswers).trans (ih horderly' hdue')

end

/-- When no call is due an object that is to be kept stores what it is to store, and its flag is as
it is forced to be. -/
structure Settled (declaration : Declaration) (desired : DesiredState) (held : Option Entry) :
    Prop where
  lists : ∀ spec ∈ declaration.attributes, spec.isList = true → ∀ v,
    ListGoal desired held spec v ↔ v ∈ stock held spec
  scalars : ∀ spec ∈ declaration.attributes, spec.isList = false →
    scalarGoal declaration desired held spec = stock held spec
  flag : ∀ enabled flag, forcedFlag declaration desired.state = some (enabled, flag) →
    enabledIn declaration held = enabled
  exists_of_explicit : desired.state ≠ .absent → declaration.creation = .explicit → held.isSome

omit regular valid hallowed in
theorem Settled.mem_stock_iff (hsettled : Settled declaration desired held')
    (hsame : SameGoals declaration desired held held') (hspec : spec ∈ declaration.attributes)
    (hlist : spec.isList = true) (v : Scalar) :
    v ∈ stock held' spec ↔ ListGoal desired held spec v :=
  (hsettled.lists spec hspec hlist v).symm.trans (hsame.lists spec hspec hlist v)

omit regular valid hallowed in
theorem Settled.stock_eq (hsettled : Settled declaration desired held')
    (hsame : SameGoals declaration desired held held') (hspec : spec ∈ declaration.attributes)
    (hscalar : spec.isList = false) (hidentity : spec.identity = false)
    (hflag : declaration.isEnableAttribute spec.name = true →
      forcedFlag declaration desired.state = none) :
    stock held' spec = scalarGoal declaration desired held spec := by
  calc stock held' spec
    _ = scalarGoal declaration desired held' spec := (hsettled.scalars spec hspec hscalar).symm
    _ = scalarGoal declaration desired held spec :=
      hsame.scalars spec hspec hscalar hidentity hflag

/-- Nothing is due when nothing is planned for an object that exists and its flag is as it is to
be. -/
theorem callsOf_eq_nil_iff {seen : Option Entry}
    (hseen : ∀ entry ∈ seen, entry.Sound declaration allowed)
    (hplanned : Planned declaration desired (actionOn held) seen changes) :
    callsOf declaration desired identity held changes = [] ↔
      changes.scalars = ∅ ∧ creates declaration (actionOn held) = false ∧
        flagCall declaration identity desired.state held = none ∧
          changes.listAdds = ∅ ∧ changes.listRemoves = ∅ := by
  constructor
  · intro hcalls
    rw [callsOf, List.append_eq_nil_iff, List.append_eq_nil_iff, Option.toList_eq_nil_iff,
      Option.toList_eq_nil_iff, primaryCall_eq_none_iff] at hcalls
    obtain ⟨⟨hscalars, hcreates⟩, hflag, hlists⟩ := hcalls
    rw [afterPrimary_eq hscalars hcreates, listCalls, List.append_eq_nil_iff, phaseCalls_eq,
      phaseCalls_eq, Dict.values, Dict.values, List.map_eq_nil_iff, List.map_eq_nil_iff] at hlists
    exact ⟨hscalars, hcreates, hflag,
      eq_empty_of_phaseTable regular (hplanned.holdable_adds regular valid hallowed)
        (fun name hname ↦ (hplanned.undeclared name hname).1) hlists.1,
      eq_empty_of_phaseTable regular (hplanned.holdable_removes regular hseen)
        (fun name hname ↦ (hplanned.undeclared name hname).2.1) hlists.2⟩
  · rintro ⟨hscalars, hcreates, hflag, hadds, hremoves⟩
    rw [callsOf_lists hscalars hcreates hflag, hadds, hremoves]
    rfl

theorem Due.settled (hheld : ∀ entry ∈ held, entry.Sound declaration allowed)
    (hdue : Due declaration desired identity held []) : Settled declaration desired held := by
  generalize hcalls : ([] : List RemoteCall) = calls at hdue
  cases hdue with
  | gone hstate =>
    refine ⟨fun spec hspec hlist v ↦ ?_, fun spec hspec hscalar ↦ ?_, fun enabled flag hforced ↦ ?_,
      fun hpresent ↦ absurd hstate hpresent⟩
    · unfold ListGoal
      rw [hstate]
      exact and_iff_left_of_imp fun hv ↦ absurd hv List.not_mem_nil
    · unfold scalarGoal
      rw [if_pos (.inl hstate)]
    · rw [hstate] at hforced
      simp [forcedFlag, TargetState.forcedEnable] at hforced
  | whole => simp at hcalls
  | @changes _ changes hstate hwritable hplanned =>
    obtain ⟨hscalars, hcreates, hflag, hnoAdds, hnoRemoves⟩ :=
      (callsOf_eq_nil_iff regular valid hallowed hheld hplanned).1 hcalls.symm
    refine ⟨fun spec hspec hlist v ↦ ?_, fun spec hspec hscalar ↦ ?_, fun enabled flag hforced ↦ ?_,
      fun _ hexplicit ↦ ?_⟩
    · exact listGoal_iff_stock ((hplanned.listAdds_eq_empty_iff regular).1 hnoAdds spec hspec hlist)
        ((hplanned.listRemoves_eq_empty_iff regular).1 hnoRemoves spec hspec hlist)
    · exact scalarGoal_eq_stock regular valid hheld hspec hscalar
        ((hplanned.scalars_eq_empty_iff regular).1 hscalars spec hspec hscalar)
    · unfold flagCall at hflag
      rw [hforced] at hflag
      by_contra hne
      simp [hne] at hflag
    · cases held with
      | none => simp [creates, actionOn, hexplicit] at hcreates
      | some entry => rfl

end Ensure

end DirectoryReconcile
