import DirectoryReconcile.Proofs.Ensure.Answers

/-!
# Planning again

What is planned for an object after one of its calls was carried out: what had been planned before,
without what that call did.
-/

namespace DirectoryReconcile

namespace Ensure

open Declaration Entry Difference Operation

variable {declaration : Declaration} {desired : DesiredState} {identity : Identity}
  {texts : List String} {allowed : String → Scalar → Prop} {changes : ChangeSet} {call : RemoteCall}
  {held held' : Option Entry} {result : Json} {spec : AttributeSpec} {rest : List RemoteCall}

/-! ## Plans for objects that store the same scalars -/

theorem addsAt_congr (h : ∀ v, v ∈ stock held spec ↔ v ∈ stock held' spec) :
    addsAt desired held spec = addsAt desired held' spec := by
  have hkeep : (fun v ↦ !(stock held spec).contains v) = fun v ↦ !(stock held' spec).contains v :=
    funext fun v ↦ by rw [List.contains_eq_mem, List.contains_eq_mem, decide_eq_decide.2 (h v)]
  rw [addsAt, addsAt, hkeep]

theorem removesAt_congr (h : ∀ v, v ∈ stock held spec ↔ v ∈ stock held' spec) :
    removesAt desired held spec = removesAt desired held' spec := by
  have hkeep : (fun v ↦ (stock held spec).contains v) = fun v ↦ (stock held' spec).contains v :=
    funext fun v ↦ by rw [List.contains_eq_mem, List.contains_eq_mem, decide_eq_decide.2 (h v)]
  rw [removesAt, removesAt, hkeep]
  cases desired.state with
  | exact => exact selected_congr fun v ↦ by rw [h v]
  | present | absent | enabled | disabled => rfl

theorem addsAt_eq_none_iff : addsAt desired held spec = none ↔
    desired.state = .absent ∨ ∀ scalars, asked desired spec = some scalars →
      ∀ v ∈ scalars, v ∈ stock held spec := by
  unfold addsAt
  split
  next hstate => simp [hstate]
  next hstate =>
    cases asked desired spec with
    | none => simp
    | some scalars => simp [hstate, selected_eq_none_iff]

theorem mem_of_addsAt {values : List Scalar} (h : addsAt desired held spec = some values) :
    desired.state ≠ .absent ∧ values ≠ [] ∧ values.Nodup ∧
      ∃ scalars, asked desired spec = some scalars ∧
        ∀ v, v ∈ values ↔ v ∈ scalars ∧ v ∉ stock held spec := by
  unfold addsAt at h
  split at h
  · simp at h
  next hstate =>
    obtain ⟨scalars, hasked, hselected⟩ := Option.bind_eq_some_iff.1 h
    obtain ⟨hne, hvalues⟩ := selected_eq_some_iff.1 hselected
    exact ⟨hstate, hne, hvalues ▸ Ascending.nodup_ofList _, scalars, hasked,
      fun v ↦ by simpa using mem_of_selected hselected v⟩

theorem mem_of_removesAt {values : List Scalar} (h : removesAt desired held spec = some values) :
    values ≠ [] ∧ (∀ v ∈ values, v ∈ stock held spec) ∧
      (desired.state = .exact ∧ (∀ v, v ∈ values ↔
          v ∈ stock held spec ∧ v ∉ (asked desired spec).getD []) ∨
        desired.state = .absent ∧ ∃ scalars, asked desired spec = some scalars ∧
          ∀ v, v ∈ values ↔ v ∈ scalars ∧ v ∈ stock held spec) := by
  unfold removesAt at h
  cases hstate : desired.state with
  | exact =>
    simp only [hstate] at h
    have hmem (v : Scalar) : v ∈ values ↔ v ∈ stock held spec ∧ v ∉ (asked desired spec).getD [] := by
      simpa using mem_of_selected h v
    exact ⟨(selected_eq_some_iff.1 h).1, fun v hv ↦ ((hmem v).1 hv).1, .inl ⟨rfl, hmem⟩⟩
  | absent =>
    simp only [hstate] at h
    obtain ⟨scalars, hasked, hselected⟩ := Option.bind_eq_some_iff.1 h
    have hmem (v : Scalar) : v ∈ values ↔ v ∈ scalars ∧ v ∈ stock held spec := by
      simpa using mem_of_selected hselected v
    exact ⟨(selected_eq_some_iff.1 hselected).1, fun v hv ↦ ((hmem v).1 hv).2,
      .inr ⟨rfl, scalars, hasked, hmem⟩⟩
  | present | enabled | disabled => simp [hstate] at h

theorem removesAt_eq_none_iff : removesAt desired held spec = none ↔
    (desired.state = .exact → ∀ v ∈ stock held spec, v ∈ (asked desired spec).getD []) ∧
      (desired.state = .absent → ∀ scalars, asked desired spec = some scalars →
        ∀ v ∈ scalars, v ∉ stock held spec) := by
  unfold removesAt
  cases hstate : desired.state with
  | exact => simp [selected_eq_none_iff]
  | absent => cases asked desired spec <;> simp [selected_eq_none_iff]
  | present | enabled | disabled => simp

/-! ## What plans consist of -/

section

variable (regular : declaration.Regular) (valid : Valid declaration desired identity texts)

include regular valid

theorem Planned.holdable_adds {action : Action}
    (hplanned : Planned declaration desired action held changes)
    (hallowed : ∀ spec scalars, Asks declaration desired spec scalars → spec.isList = true →
      ∀ v ∈ scalars, allowed spec.name v) : Holdable declaration allowed changes.listAdds := by
  intro spec hspec values hvalues
  rw [hplanned.adds spec hspec] at hvalues
  split at hvalues
  next hlist =>
    obtain ⟨-, hne, -, scalars, hasked, hmem⟩ := mem_of_addsAt hvalues
    have hasks := asks_of_asked valid regular hspec hasked
    refine ⟨hlist, hne, fun v hv ↦ ?_⟩
    have hv := ((hmem v).1 hv).1
    exact ⟨hasks.keeps v hv, hallowed spec scalars hasks hlist v hv⟩
  next => simp at hvalues

omit valid in
theorem Planned.holdable_removes {action : Action}
    (hplanned : Planned declaration desired action held changes)
    (hheld : ∀ entry ∈ held, entry.Sound declaration allowed) :
    Holdable declaration allowed changes.listRemoves := by
  intro spec hspec values hvalues
  rw [hplanned.removes spec hspec] at hvalues
  split at hvalues
  next hlist =>
    obtain ⟨hne, hsub, -⟩ := mem_of_removesAt hvalues
    refine ⟨hlist, hne, fun v hv ↦ ?_⟩
    cases held with
    | none => exact absurd (hsub v hv) List.not_mem_nil
    | some entry => exact (hheld entry rfl).stored.held regular hspec hlist (hsub v hv)
  next => simp at hvalues

theorem comes_of_assignsAt {action : Action} {v : Scalar} (hspec : spec ∈ declaration.attributes)
    (h : assignsAt declaration desired action held spec = some v) :
    spec.identity = false ∧ (v = .null ∨ spec.Keeps v) := by
  unfold assignsAt at h
  split at h
  next => simp at h
  next hconsiders =>
    simp only [considers, not_or, Bool.not_eq_false, Bool.and_eq_true,
      Bool.not_eq_true'] at hconsiders
    apply And.intro hconsiders.2.1.1
    split at h
    next scalars hasked =>
      have hasks := asks_of_asked valid regular hspec hasked
      split at h
      next => simp at h
      next =>
        cases Option.some.inj h
        cases scalars with
        | nil => exact .inl rfl
        | cons v others => exact .inr (hasks.keeps v List.mem_cons_self)
    next =>
      split at h
      next => exact .inl (Option.some.inj h).symm
      next => simp at h

omit valid in
theorem exists_of_declared {α : Type} {dict : Dict α} {name : String} {value : α}
    (hget : dict.get? name = some value)
    (hundeclared : declaration.attribute? name = none → dict.get? name = none) :
    ∃ spec ∈ declaration.attributes, spec.name = name := by
  cases hattribute : declaration.attribute? name with
  | none => simp [hundeclared hattribute] at hget
  | some spec => exact ⟨spec, regular.attribute?_eq_some_iff.1 hattribute⟩

theorem Planned.comes {action : Action}
    (hplanned : Planned declaration desired action held changes) :
    Comes declaration desired changes := by
  constructor
  case scalars =>
    intro name v hv
    obtain ⟨spec, hspec, rfl⟩ :=
      exists_of_declared regular hv fun hname ↦ (hplanned.undeclared name hname).2.2
    rw [hplanned.scalars spec hspec] at hv
    split at hv
    next => simp at hv
    next hscalar =>
      obtain ⟨hidentity, hcomes⟩ := comes_of_assignsAt regular valid hspec hv
      exact ⟨spec, hspec, rfl, hidentity, by simpa using hscalar, hcomes⟩
  case adds =>
    intro name values hvalues
    obtain ⟨spec, hspec, rfl⟩ :=
      exists_of_declared regular hvalues fun hname ↦ (hplanned.undeclared name hname).1
    rw [hplanned.adds spec hspec] at hvalues
    split at hvalues
    next hlist =>
      obtain ⟨-, hne, hnodup, scalars, hasked, hmem⟩ := mem_of_addsAt hvalues
      exact ⟨spec, scalars, rfl, hlist, asks_of_asked valid regular hspec hasked, hne, hnodup,
        fun v hv ↦ ((hmem v).1 hv).1⟩
    next => simp at hvalues
  case removes =>
    intro name values hvalues
    obtain ⟨spec, hspec, rfl⟩ :=
      exists_of_declared regular hvalues fun hname ↦ (hplanned.undeclared name hname).2.1
    rw [hplanned.removes spec hspec] at hvalues
    split at hvalues
    next hlist => exact ⟨spec, hspec, rfl, hlist⟩
    next => simp at hvalues

end

/-! ## What list values leave alone -/

/-- The attributes other than lists and those of the identity have the same scalars. -/
def SameScalars (declaration : Declaration) (held held' : Option Entry) : Prop :=
  ∀ spec ∈ declaration.attributes, spec.identity = false → spec.isList = false →
    stock held' spec = stock held spec

theorem length_stock_le (regular : declaration.Regular)
    (hheld : ∀ entry ∈ held, entry.Sound declaration allowed) (hspec : spec ∈ declaration.attributes)
    (hscalar : spec.isList = false) : (stock held spec).length ≤ 1 := by
  by_cases hempty : stock held spec = []
  · simp [hempty]
  cases held with
  | none => exact absurd rfl hempty
  | some entry =>
    have hstocks := (hheld entry rfl).stored.stocks regular hspec hempty
    exact hstocks.short (AttributeSpec.cardinality_of_not_isList hscalar)

theorem sameScalars_of_mem_iff (regular : declaration.Regular)
    (hheld : ∀ entry ∈ held, entry.Sound declaration allowed)
    (hheld' : ∀ entry ∈ held', entry.Sound declaration allowed)
    (h : ∀ spec ∈ declaration.attributes, spec.identity = false → spec.isList = false →
      ∀ v, v ∈ stock held' spec ↔ v ∈ stock held spec) : SameScalars declaration held held' := by
  intro spec hspec hidentity hscalar
  have hlength := length_stock_le regular hheld hspec hscalar
  have hlength' := length_stock_le regular hheld' hspec hscalar
  have hmem := h spec hspec hidentity hscalar
  generalize stock held spec = old at hlength hmem ⊢
  generalize stock held' spec = new at hlength' hmem ⊢
  cases old with
  | nil =>
    cases new with
    | nil => rfl
    | cons w _ => simpa using hmem w
  | cons v rest =>
    cases new with
    | nil => simpa using hmem v
    | cons w rest' =>
      obtain rfl : rest = [] := by simpa using hlength
      obtain rfl : rest' = [] := by simpa using hlength'
      simpa [eq_comm] using hmem v

theorem primaryCall_eq_none_iff {action : Action} :
    primaryCall declaration identity action changes = none ↔
      changes.scalars = ∅ ∧ creates declaration action = false := by
  unfold primaryCall
  split
  next h => simpa [Dict.isEmpty_iff] using h
  next h => simpa [Dict.isEmpty_iff] using h

theorem afterPrimary_eq {action : Action} (hscalars : changes.scalars = ∅)
    (hcreates : creates declaration action = false) :
    afterPrimary declaration action changes = changes := by
  unfold afterPrimary
  rw [hcreates, if_neg Bool.false_ne_true, ← hscalars]

/-- An object is enabled by its flag alone. -/
theorem enabledIn_congr (regular : declaration.Regular)
    (h : ∀ spec ∈ declaration.attributes, declaration.isEnableAttribute spec.name = true →
      stock held' spec = stock held spec) : enabledIn declaration held' = enabledIn declaration held := by
  rw [enabledIn, enabledIn]
  cases henable : declaration.enable with
  | none => rfl
  | some flag =>
    obtain ⟨spec, hspec, hname, -⟩ := regular.flag_declared flag henable
    have hflag : declaration.isEnableAttribute spec.name = true := by
      simp [isEnableAttribute, henable, hname]
    simp only [regular.attribute?_eq_some_iff.2 ⟨hspec, hname⟩, Option.map_some, h spec hspec hflag]

/-- The flag is all that the call which sets it depends on. -/
theorem flagCall_congr (regular : declaration.Regular)
    (h : ∀ spec ∈ declaration.attributes, declaration.isEnableAttribute spec.name = true →
      stock held' spec = stock held spec) (identity : Identity) (state : TargetState) :
    flagCall declaration identity state held' = flagCall declaration identity state held := by
  rw [flagCall, flagCall, enabledIn_congr regular h]

section

variable (regular : declaration.Regular) (hsame : SameScalars declaration held held')
  (haction : actionOn held' = actionOn held ∨ declaration.creation = .implicit)

include regular hsame

omit haction in
theorem SameScalars.flag (hspec : spec ∈ declaration.attributes)
    (hflag : declaration.isEnableAttribute spec.name = true) :
    stock held' spec = stock held spec := by
  obtain ⟨hscalar, hidentity⟩ := regular.flag_plain hspec hflag
  exact hsame spec hspec hidentity hscalar

include haction

theorem assignsAt_left (hscalars : changes.scalars = ∅)
    (hplanned : Planned declaration desired (actionOn held) held changes)
    (hspec : spec ∈ declaration.attributes) (hscalar : spec.isList = false) :
    assignsAt declaration desired (actionOn held') held' spec = none := by
  cases hidentity : spec.identity with
  | true =>
    have hconsiders : considers declaration (actionOn held') false spec = false := by
      simp [considers, hidentity]
    unfold assignsAt
    rw [if_pos (.inr hconsiders)]
  | false =>
    rcases haction with haction | himplicit
    · unfold assignsAt
      rw [haction, hsame spec hspec hidentity hscalar, ← assignsAt]
      exact (hplanned.scalars_eq_empty_iff regular).1 hscalars spec hspec hscalar
    · rcases (regular.implicit_lists himplicit).2 spec hspec with h | ⟨h, -⟩
      · simp [hidentity] at h
      · simp [hscalar] at h

theorem writable_left (valid : Valid declaration desired identity texts)
    (hwritable : Writable declaration desired held) : Writable declaration desired held' := by
  intro spec hspec scalars hasked hnot
  have hidentity := (asks_of_asked valid regular hspec hasked).identity
  have hscalar : spec.isList = false := by
    by_contra hlist
    obtain ⟨-, -, hadd, hmodify⟩ := regular.list_text spec hspec (by simpa using hlist)
    rcases actionOn_cases held' with h | h <;> simp_all
  rcases haction with haction | himplicit
  · rw [hsame spec hspec hidentity hscalar]
    exact hwritable spec hspec scalars hasked (haction ▸ hnot)
  · rcases (regular.implicit_lists himplicit).2 spec hspec with h | ⟨h, -⟩
    · simp [hidentity] at h
    · simp [hscalar] at h

end

/-! ## After a call of a list method -/

/-- The changes that are left when the lists of one method were settled. -/
def withoutLists (declaration : Declaration) (adding : Bool) (method : String)
    (changes : ChangeSet) : ChangeSet :=
  if adding then { changes with
    listAdds := changes.listAdds.filter fun name _ ↦ !belongs declaration true method name }
  else { changes with
    listRemoves := changes.listRemoves.filter fun name _ ↦ !belongs declaration false method name }

theorem filter_not {α : Type} (b : Bool) (value? : Option α) :
    value?.filter (fun _ ↦ !b) = if b then none else value? := by
  cases b <;> cases value? <;> rfl

/-- The lists that are added to, or those that are removed from. -/
def listsOf (adding : Bool) (changes : ChangeSet) : Dict (List Scalar) :=
  if adding then changes.listAdds else changes.listRemoves

theorem get?_withoutLists (adding : Bool) (method name : String) (changes : ChangeSet) :
    (listsOf adding (withoutLists declaration adding method changes)).get? name =
      if belongs declaration adding method name then none
      else (listsOf adding changes).get? name := by
  cases adding with
  | true =>
    simp only [listsOf, withoutLists, if_true, Dict.get?_filter]
    exact filter_not _ _
  | false =>
    simp only [listsOf, withoutLists, Bool.false_eq_true, if_false, Dict.get?_filter]
    exact filter_not _ _

/-- An object after values of the lists of one method were added or removed. -/
def Relisted (declaration : Declaration) (adding : Bool) (method : String)
    (lists : Dict (List Scalar)) (held held' : Option Entry) : Prop :=
  ∀ spec ∈ declaration.attributes, spec.identity = false → ∀ v, v ∈ stock held' spec ↔
    Moved adding (v ∈ stock held spec) (belongs declaration adding method spec.name = true ∧
      ∃ values, lists.get? spec.name = some values ∧ v ∈ values)

variable {method : String} (regular : declaration.Regular)

include regular

theorem Relisted.sameScalars {adding : Bool} {lists : Dict (List Scalar)}
    (h : Relisted declaration adding method lists held held')
    (hlists : Holdable declaration allowed lists)
    (hheld : ∀ entry ∈ held, entry.Sound declaration allowed)
    (hheld' : ∀ entry ∈ held', entry.Sound declaration allowed) :
    SameScalars declaration held held' := by
  apply sameScalars_of_mem_iff regular hheld hheld'
  intro spec hspec hidentity hscalar v
  have hnone : ¬(belongs declaration adding method spec.name = true ∧
      ∃ values, lists.get? spec.name = some values ∧ v ∈ values) := by
    rintro ⟨-, values, hvalues, -⟩
    simp [(hlists spec hspec values hvalues).1] at hscalar
  rw [h spec hspec hidentity v, eq_false hnone, moved_false]

/-- Lists that had values added lack them no more, and nothing else about lists is different. -/
theorem lists_after_additions
    (hplanned : Planned declaration desired (actionOn held) held changes)
    (h : Relisted declaration true method changes.listAdds held held')
    (hspec : spec ∈ declaration.attributes) (hlist : spec.isList = true) :
    addsAt desired held' spec =
        (if belongs declaration true method spec.name then none else addsAt desired held spec) ∧
      removesAt desired held' spec = removesAt desired held spec := by
  have hidentity := (regular.list_text spec hspec hlist).2.1
  have hadds : changes.listAdds.get? spec.name = addsAt desired held spec := by
    rw [hplanned.adds spec hspec, if_pos hlist]
  have hmem (v : Scalar) : v ∈ stock held' spec ↔ v ∈ stock held spec ∨
      belongs declaration true method spec.name = true ∧
        ∃ values, addsAt desired held spec = some values ∧ v ∈ values := by
    rw [h spec hspec hidentity v, hadds, Moved, if_pos rfl]
  constructor
  · split
    next hbelongs =>
      rw [addsAt_eq_none_iff]
      by_cases hstate : desired.state = .absent
      · exact .inl hstate
      refine .inr fun scalars hasked v hv ↦ (hmem v).2 ?_
      by_cases hstored : v ∈ stock held spec
      · exact .inl hstored
      cases hvalues : addsAt desired held spec with
      | none =>
        have hnone := (addsAt_eq_none_iff.1 hvalues).resolve_left hstate
        exact absurd (hnone scalars hasked v hv) hstored
      | some values =>
        obtain ⟨-, -, -, scalars', hasked', hvalues'⟩ := mem_of_addsAt hvalues
        cases hasked.symm.trans hasked'
        exact .inr ⟨hbelongs, values, rfl, (hvalues' v).2 ⟨hv, hstored⟩⟩
    next hnot => exact (addsAt_congr fun v ↦ by rw [hmem v]; simp [hnot]).symm
  · cases hvalues : addsAt desired held spec with
    | none => exact removesAt_congr fun v ↦ by rw [hmem v]; simp [hvalues]
    | some values =>
      obtain ⟨hstate, -, -, scalars, hasked, hvalues'⟩ := mem_of_addsAt hvalues
      -- Only requested values were added, and those are never surplus.
      rw [removesAt, removesAt]
      cases hcase : desired.state with
      | exact =>
        apply selected_congr
        intro v
        have hadded := hvalues' v
        have hstored := hmem v
        simp only [hvalues, Option.some.injEq, exists_eq_left'] at hstored
        simp only [hasked, Option.getD_some, hstored]
        simp
        grind
      | absent => exact absurd hcase hstate
      | present | enabled | disabled => rfl

theorem lists_after_removals
    (hplanned : Planned declaration desired (actionOn held) held changes)
    (hadds : changes.listAdds = ∅)
    (h : Relisted declaration false method changes.listRemoves held held')
    (hspec : spec ∈ declaration.attributes) (hlist : spec.isList = true) :
    addsAt desired held' spec = none ∧ removesAt desired held' spec =
      if belongs declaration false method spec.name then none else removesAt desired held spec := by
  have hidentity := (regular.list_text spec hspec hlist).2.1
  have hnoAdds : addsAt desired held spec = none :=
    (hplanned.listAdds_eq_empty_iff regular).1 hadds spec hspec hlist
  have hremoves : changes.listRemoves.get? spec.name = removesAt desired held spec := by
    rw [hplanned.removes spec hspec, if_pos hlist]
  have hmem (v : Scalar) : v ∈ stock held' spec ↔ v ∈ stock held spec ∧
      ¬(belongs declaration false method spec.name = true ∧
        ∃ values, removesAt desired held spec = some values ∧ v ∈ values) := by
    rw [h spec hspec hidentity v, hremoves, Moved, if_neg Bool.false_ne_true]
  cases hvalues : removesAt desired held spec with
  | none =>
    have hsame (v : Scalar) : v ∈ stock held spec ↔ v ∈ stock held' spec := by
      rw [hmem v]
      simp [hvalues]
    rw [← addsAt_congr hsame, ← removesAt_congr hsame, hnoAdds, hvalues]
    simp
  | some values =>
    simp only [hvalues, Option.some.injEq, exists_eq_left'] at hmem
    obtain ⟨-, -, ⟨hstate, hvalues'⟩ | ⟨hstate, scalars, hasked, hvalues'⟩⟩ :=
      mem_of_removesAt hvalues
    · constructor
      · have hstored := (addsAt_eq_none_iff.1 hnoAdds).resolve_left (by simp [hstate])
        refine addsAt_eq_none_iff.2 (.inr fun scalars hasked v hv ↦ (hmem v).2 ?_)
        refine ⟨hstored scalars hasked v hv, fun hboth ↦ ?_⟩
        exact ((hvalues' v).1 hboth.2).2 (by simpa [hasked] using hv)
      · split
        next hbelongs =>
          refine removesAt_eq_none_iff.2 ⟨fun _ v hv ↦ ?_, by simp [hstate]⟩
          obtain ⟨hv, hnot⟩ := (hmem v).1 hv
          by_contra hextra
          exact hnot ⟨hbelongs, (hvalues' v).2 ⟨hv, hextra⟩⟩
        next hnot => rw [← hvalues]; exact (removesAt_congr fun v ↦ by rw [hmem v]; simp [hnot]).symm
    · refine ⟨addsAt_eq_none_iff.2 (.inl hstate), ?_⟩
      split
      next hbelongs =>
        refine removesAt_eq_none_iff.2 ⟨by simp [hstate], fun _ scalars' hasked' v hv hstored ↦ ?_⟩
        cases hasked.symm.trans hasked'
        obtain ⟨hstored, hnot⟩ := (hmem v).1 hstored
        exact hnot ⟨hbelongs, (hvalues' v).2 ⟨hv, hstored⟩⟩
      next hnot => rw [← hvalues]; exact (removesAt_congr fun v ↦ by rw [hmem v]; simp [hnot]).symm

theorem Planned.after_lists {adding : Bool}
    (hplanned : Planned declaration desired (actionOn held) held changes)
    (hscalars : changes.scalars = ∅) (hadds : adding = false → changes.listAdds = ∅)
    (h : Relisted declaration adding method (listsOf adding changes) held held')
    (hsame : SameScalars declaration held held')
    (haction : actionOn held' = actionOn held ∨ declaration.creation = .implicit) :
    Planned declaration desired (actionOn held') held' (withoutLists declaration adding method changes) := by
  have hleft {spec : AttributeSpec} (hspec : spec ∈ declaration.attributes) :
      (changes.scalars.get? spec.name) = if spec.isList then none
        else assignsAt declaration desired (actionOn held') held' spec := by
    rw [hscalars, Dict.get?_empty]
    split
    · rfl
    next hscalar =>
      exact (assignsAt_left regular hsame haction hscalars hplanned hspec (by simpa using hscalar)).symm
  cases adding with
  | true =>
    unfold withoutLists
    rw [if_pos rfl]
    refine ⟨fun spec hspec ↦ ?_, fun spec hspec ↦ ?_, fun spec hspec ↦ hleft hspec,
      fun name hname ↦ ?_⟩
    · rw [Dict.get?_filter, hplanned.adds spec hspec]
      split
      next hlist =>
        rw [(lists_after_additions regular hplanned h hspec hlist).1]
        exact filter_not _ _
      next => rfl
    · rw [hplanned.removes spec hspec]
      split
      next hlist => exact (lists_after_additions regular hplanned h hspec hlist).2.symm
      next => rfl
    · obtain ⟨hadds, hremoves, hnone⟩ := hplanned.undeclared name hname
      exact ⟨by rw [Dict.get?_filter, hadds, Option.filter_none], hremoves, hnone⟩
  | false =>
    have hadds := hadds rfl
    unfold withoutLists
    rw [if_neg Bool.false_ne_true]
    refine ⟨fun spec hspec ↦ ?_, fun spec hspec ↦ ?_, fun spec hspec ↦ hleft hspec,
      fun name hname ↦ ?_⟩
    · rw [hadds, Dict.get?_empty]
      split
      next hlist => exact (lists_after_removals regular hplanned hadds h hspec hlist).1.symm
      next => rfl
    · rw [Dict.get?_filter, hplanned.removes spec hspec]
      split
      next hlist =>
        rw [(lists_after_removals regular hplanned hadds h hspec hlist).2]
        exact filter_not _ _
      next => rfl
    · obtain ⟨hadds, hremoves, hnone⟩ := hplanned.undeclared name hname
      exact ⟨hadds, by rw [Dict.get?_filter, hremoves, Option.filter_none], hnone⟩

/-! ## After the first call -/

omit regular in
theorem get?_inlineAdds_eq (action : Action) (hspec : declaration.attribute? spec.name = some spec) :
    (inlineAdds declaration action changes).get? spec.name =
      if creates declaration action = true ∧ spec.route = none then changes.listAdds.get? spec.name
      else none := by
  unfold inlineAdds
  cases creates declaration action with
  | true =>
    rw [if_pos rfl, Dict.get?_filter, isUnrouted, hspec, Option.any_some]
    cases spec.route <;> cases changes.listAdds.get? spec.name <;> simp
  | false => simp

omit regular in
theorem get?_afterPrimary_listAdds (action : Action)
    (hspec : declaration.attribute? spec.name = some spec) :
    (afterPrimary declaration action changes).listAdds.get? spec.name =
      if creates declaration action = true ∧ spec.route = none then none
      else changes.listAdds.get? spec.name := by
  unfold afterPrimary
  cases creates declaration action with
  | true =>
    rw [if_pos rfl, Dict.get?_filter, isUnrouted, hspec, Option.any_some]
    cases spec.route <;> cases changes.listAdds.get? spec.name <;> simp
  | false => simp

omit regular in
theorem afterPrimary_scalars (action : Action) :
    (afterPrimary declaration action changes).scalars = ∅ := by
  unfold afterPrimary
  split <;> rfl

theorem primaryStock_of_list (hplanned : Planned declaration desired (actionOn held) held changes)
    (hspec : spec ∈ declaration.attributes) (hlist : spec.isList = true) :
    primaryStock declaration (actionOn held) changes held spec =
      if creates declaration (actionOn held) = true ∧ spec.route = none then
        (addsAt desired held spec).getD (stock held spec)
      else stock held spec := by
  rw [primaryStock, hplanned.scalars spec hspec, if_pos hlist,
    get?_inlineAdds_eq _ (regular.attribute?_of_mem hspec), hplanned.adds spec hspec, if_pos hlist]
  simp only
  split <;> rfl

theorem primaryStock_of_scalar (hplanned : Planned declaration desired (actionOn held) held changes)
    (hspec : spec ∈ declaration.attributes) (hscalar : spec.isList = false) :
    primaryStock declaration (actionOn held) changes held spec =
      match assignsAt declaration desired (actionOn held) held spec with
      | some v => if v.isNull then [] else [v]
      | none => stock held spec := by
  have hnone : (inlineAdds declaration (actionOn held) changes).get? spec.name = none := by
    rw [get?_inlineAdds_eq _ (regular.attribute?_of_mem hspec), hplanned.adds spec hspec]
    simp [hscalar]
  rw [primaryStock, hplanned.scalars spec hspec, hnone, if_neg (by simp [hscalar])]
  rfl

/-- The first call assigns what there was to assign. -/
theorem assignsAt_after_primary
    (hplanned : Planned declaration desired (actionOn held) held changes)
    (hspec : spec ∈ declaration.attributes) (hscalar : spec.isList = false)
    (hstock : spec.identity = false →
      stock held' spec = primaryStock declaration (actionOn held) changes held spec) :
    assignsAt declaration desired .modify held' spec = none := by
  by_cases hnone : desired.state = .absent ∨ considers declaration .modify false spec = false
  · unfold assignsAt
    rw [if_pos hnone]
  rw [not_or, Bool.not_eq_false] at hnone
  obtain ⟨hstate, hconsiders⟩ := hnone
  have hboth : spec.identity = false ∧ declaration.isEnableAttribute spec.name = false := by
    simp only [considers, Bool.and_eq_true, Bool.not_eq_true', Bool.false_or] at hconsiders
    exact ⟨hconsiders.1.1, hconsiders.2⟩
  have hconsidered : considers declaration (actionOn held) false spec = true := by
    cases held with
    | none =>
      have hadd := (regular.scalar_plain spec hspec hscalar).2.2
      simp [considers, actionOn, hboth, hadd]
    | some entry => exact hconsiders
  have hstock := hstock hboth.1
  rw [primaryStock_of_scalar regular hplanned hspec hscalar, assignsAt,
    if_neg (by simp [hstate, hconsidered])] at hstock
  rw [assignsAt, if_neg (by simp [hstate, hconsiders])]
  cases hasked : asked desired spec with
  | some scalars =>
    simp only [hasked] at hstock ⊢
    have hhead : (stock held' spec).headD .null = scalars.headD .null := by
      split at hstock
      next v hv =>
        split at hv
        · simp at hv
        · cases Option.some.inj hv
          rw [hstock]
          cases scalars.headD .null <;> rfl
      next hv =>
        split at hv
        next heq => rw [hstock, heq]
        next => simp at hv
    rw [if_pos hhead]
  | none =>
    simp only [hasked] at hstock ⊢
    by_cases hcleared : desired.state = .exact ∧ stock held spec ≠ []
    · rw [if_pos hcleared] at hstock
      simp [hstock, Scalar.isNull]
    · rw [if_neg hcleared] at hstock
      rw [hstock, if_neg hcleared]

section

variable (hplanned : Planned declaration desired (actionOn held) held changes)
  (hcreates : creates declaration (actionOn held) = held.isNone)
  (hstock : ∀ spec ∈ declaration.attributes, spec.identity = false →
    stock held' spec = primaryStock declaration (actionOn held) changes held spec)

include hplanned hcreates hstock

theorem lists_after_primary (hspec : spec ∈ declaration.attributes) (hlist : spec.isList = true) :
    addsAt desired held' spec = (if creates declaration (actionOn held) = true ∧ spec.route = none
        then none else addsAt desired held spec) ∧
      removesAt desired held' spec = removesAt desired held spec := by
  have hidentity := (regular.list_text spec hspec hlist).2.1
  have hstock := hstock spec hspec hidentity
  rw [primaryStock_of_list regular hplanned hspec hlist] at hstock
  split
  next hinline =>
    rw [if_pos hinline] at hstock
    obtain rfl : held = none := by simpa [hcreates] using hinline.1
    have hremoves : removesAt desired none spec = none :=
      removesAt_eq_none_iff.2 ⟨fun _ v hv ↦ absurd hv List.not_mem_nil,
        fun _ _ _ v _ hv ↦ absurd hv List.not_mem_nil⟩
    rw [hremoves, addsAt_eq_none_iff, removesAt_eq_none_iff, hstock]
    cases hvalues : addsAt desired none spec with
    | none =>
      have hnone := addsAt_eq_none_iff.1 hvalues
      exact ⟨hnone, fun _ v hv ↦ absurd hv List.not_mem_nil,
        fun _ _ _ v _ hv ↦ absurd hv List.not_mem_nil⟩
    | some values =>
      obtain ⟨hstate, -, -, scalars, hasked, hmem⟩ := mem_of_addsAt hvalues
      simp only [Option.getD_some, hasked, Option.some.injEq]
      refine ⟨.inr ?_, fun _ v hv ↦ ((hmem v).1 hv).1, fun h ↦ absurd h hstate⟩
      rintro _ rfl v hv
      exact (hmem v).2 ⟨hv, List.not_mem_nil⟩
  next hinline =>
    rw [if_neg hinline] at hstock
    have hsame (v : Scalar) : v ∈ stock held' spec ↔ v ∈ stock held spec := by rw [hstock]
    exact ⟨addsAt_congr hsame, removesAt_congr hsame⟩

theorem writable_after_primary (valid : Valid declaration desired identity texts)
    (hstate : desired.state ≠ .absent) (hsome : held'.isSome)
    (hwritable : Writable declaration desired held) : Writable declaration desired held' := by
  intro spec hspec scalars hasked hnot
  have hasks := asks_of_asked valid regular hspec hasked
  obtain ⟨entry, rfl⟩ := Option.isSome_iff_exists.1 hsome
  have hscalar : spec.isList = false := by
    by_contra hlist
    obtain ⟨-, -, -, hmodify⟩ := regular.list_text spec hspec (by simpa using hlist)
    simp [actionOn, hmodify] at hnot
  have hstock := hstock spec hspec hasks.identity
  rw [primaryStock_of_scalar regular hplanned hspec hscalar, assignsAt] at hstock
  cases held with
  | some found =>
    have hconsiders : considers declaration (actionOn (some found)) false spec = false := by
      have hmodify : spec.appliesTo (actionOn (some found)) = false := hnot
      simp [considers, hmodify]
    rw [if_pos (.inr hconsiders)] at hstock
    rw [hstock]
    exact hwritable spec hspec scalars hasked hnot
  | none =>
    have hadd := (regular.scalar_plain spec hspec hscalar).2.2
    have hconsiders : considers declaration (actionOn none) false spec = true := by
      simp [considers, actionOn, hasks.identity, hasks.unflagged, hadd]
    rw [if_neg (by simp [hstate, hconsiders])] at hstock
    simp only [hasked] at hstock
    rw [hstock]
    split
    next v hv =>
      split at hv
      · simp at hv
      · cases Option.some.inj hv
        cases scalars.headD .null <;> simp [Scalar.isNull]
    next => exact .inl rfl

theorem Planned.after_primary (hsome : held'.isSome) :
    Planned declaration desired (actionOn held') held'
      (afterPrimary declaration (actionOn held) changes) := by
  obtain ⟨entry, rfl⟩ := Option.isSome_iff_exists.1 hsome
  refine ⟨fun spec hspec ↦ ?_, fun spec hspec ↦ ?_, fun spec hspec ↦ ?_, fun name hname ↦ ?_⟩
  · rw [get?_afterPrimary_listAdds _ (regular.attribute?_of_mem hspec), hplanned.adds spec hspec]
    cases hlist : spec.isList with
    | true => exact (lists_after_primary regular hplanned hcreates hstock hspec hlist).1.symm
    | false => simp
  · rw [afterPrimary_listRemoves, hplanned.removes spec hspec]
    split
    next hlist =>
      exact (lists_after_primary regular hplanned hcreates hstock hspec hlist).2.symm
    next => rfl
  · rw [afterPrimary_scalars, Dict.get?_empty]
    split
    next => rfl
    next hscalar =>
      exact (assignsAt_after_primary regular hplanned hspec (by simpa using hscalar)
        (hstock spec hspec)).symm
  · obtain ⟨hadds, hremoves, -⟩ := hplanned.undeclared name hname
    refine ⟨?_, by rw [afterPrimary_listRemoves, hremoves], by rw [afterPrimary_scalars, Dict.get?_empty]⟩
    unfold afterPrimary
    split
    · rw [Dict.get?_filter, hadds, Option.filter_none]
    · exact hadds

omit hcreates in
/-- The first call does not set the flag. -/
theorem flag_after_primary (hspec : spec ∈ declaration.attributes)
    (hflag : declaration.isEnableAttribute spec.name = true) :
    stock held' spec = stock held spec := by
  obtain ⟨hscalar, hidentity⟩ := regular.flag_plain hspec hflag
  have hconsiders : considers declaration (actionOn held) false spec = false := by
    simp [considers, hflag]
  rw [hstock spec hspec hidentity, primaryStock_of_scalar regular hplanned hspec hscalar, assignsAt,
    if_pos (.inr hconsiders)]

end

/-! ## After the flag was set -/

section

variable (hstock : ∀ spec ∈ declaration.attributes,
  declaration.isEnableAttribute spec.name = false → stock held' spec = stock held spec)

include hstock

/-- Nothing is planned for the flag, so it makes no difference to a plan. -/
theorem Planned.after_flag {action : Action} (hplanned : Planned declaration desired action held changes) :
    Planned declaration desired action held' changes := by
  have hlists {spec : AttributeSpec} (hspec : spec ∈ declaration.attributes)
      (hlist : spec.isList = true) (v : Scalar) : v ∈ stock held spec ↔ v ∈ stock held' spec := by
    rw [hstock spec hspec (regular.list_unflagged hspec hlist)]
  refine ⟨fun spec hspec ↦ ?_, fun spec hspec ↦ ?_, fun spec hspec ↦ ?_, hplanned.undeclared⟩
  · rw [hplanned.adds spec hspec]
    split
    next hlist => exact addsAt_congr (hlists hspec hlist)
    next => rfl
  · rw [hplanned.removes spec hspec]
    split
    next hlist => exact removesAt_congr (hlists hspec hlist)
    next => rfl
  · rw [hplanned.scalars spec hspec]
    cases hflag : declaration.isEnableAttribute spec.name with
    | true =>
      have hconsiders : considers declaration action false spec = false := by
        simp [considers, hflag]
      simp only [assignsAt, hconsiders, or_true, if_true]
    | false => simp only [assignsAt, hstock spec hspec hflag]

theorem writable_after_flag (valid : Valid declaration desired identity texts)
    (haction : actionOn held' = actionOn held) (hwritable : Writable declaration desired held) :
    Writable declaration desired held' := by
  intro spec hspec scalars hasked hnot
  have hunflagged := (asks_of_asked valid regular hspec hasked).unflagged
  rw [hstock spec hspec hunflagged]
  exact hwritable spec hspec scalars hasked (haction ▸ hnot)

end

end Ensure

end DirectoryReconcile
