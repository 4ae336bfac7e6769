import DirectoryReconcile.Proofs.Ascending
import DirectoryReconcile.Proofs.Ensure.Flag
import DirectoryReconcile.Proofs.Ensure.Views

/-!
# Differences of sets

The changes that an object needs, told from what it has and what is requested alone: of each list
the values on one side and not on the other, or on both, and of each scalar whether it differs. The
order of values and their repetitions do not matter, and neither does the way that the changes are
found.
-/

namespace DirectoryReconcile

namespace Canonical

/-- The values of a list attribute, none when it is missing or a scalar. -/
def listOf (view : Canonical) (name : String) : List Scalar :=
  match view.get? name with
  | some (.list values) => values
  | _ => []

variable {view : Canonical} {name : String} {v : Scalar}

theorem mem_listOf_iff :
    v ∈ view.listOf name ↔ ∃ values, view.get? name = some (.list values) ∧ v ∈ values := by
  unfold listOf
  cases view.get? name with
  | none => simp
  | some value => cases value <;> simp

theorem valuesOf_eq_listOf (h : ∀ v, view.get? name ≠ some (.scalar v)) :
    view.valuesOf name = view.listOf name := by
  unfold valuesOf listOf
  cases hget : view.get? name with
  | none => rfl
  | some value =>
    cases value with
    | scalar v => exact absurd hget (h v)
    | list values => rfl

end Canonical

instance : EmptyCollection ChangeSet := ⟨⟨∅, ∅, ∅⟩⟩

/-- A change set has nothing for an attribute. -/
structure ChangeSet.Omits (changes : ChangeSet) (name : String) : Prop where
  scalars : changes.scalars.get? name = none
  listAdds : changes.listAdds.get? name = none
  listRemoves : changes.listRemoves.get? name = none

namespace Difference

open Declaration Ensure

variable {current wanted : Canonical} {name : String} {v : Scalar}

/-- The two views that are compared: what the object has and what is requested, for all attributes
that the action can write outside the identity. The flag is on both sides where the state is enabled
or disabled, and on none elsewhere. -/
structure Views (declaration : Declaration) (object : RemoteObject) (desired : DesiredState)
    (action : Action) (current wanted : Canonical) : Prop where
  has : ∀ name value, declaration.isEnableAttribute name = false →
    (current.get? name = some value ↔ Has declaration object action false name value)
  wants : ∀ name value, declaration.isEnableAttribute name = false →
    (wanted.get? name = some value ↔ Wants declaration desired action name value)
  unforced : desired.state ≠ .enabled → desired.state ≠ .disabled →
    ∀ name, declaration.isEnableAttribute name = true →
      current.get? name = none ∧ wanted.get? name = none
  /-- A missing flag counts as enabled. -/
  forced : ∀ enabled flag, desired.state = (if enabled then .enabled else .disabled) →
    declaration.enable = some flag →
      wanted.get? flag.attr = some (.scalar (.bool (flag.storedValue enabled))) ∧
        ∀ value, current.get? flag.attr = some value ↔
          Has declaration object action true flag.attr value ∧ value ≠ .scalar .null ∨
            (∀ value, Has declaration object action true flag.attr value → value = .scalar .null) ∧
              value = .scalar (.bool (flag.storedValue true))

/-- The changes from one view to the state asked for by another, attribute by attribute. -/
structure IsDifference (state : TargetState) (current wanted : Canonical) (changes : ChangeSet) :
    Prop where
  adds : ∀ name v, v ∈ (changes.listAdds.get? name).getD [] ↔
    state ≠ .absent ∧ v ∈ wanted.listOf name ∧ v ∉ current.listOf name
  removes : ∀ name v, v ∈ (changes.listRemoves.get? name).getD [] ↔
    state = .exact ∧ v ∈ current.listOf name ∧ v ∉ wanted.listOf name ∨
      state = .absent ∧ v ∈ current.listOf name ∧ v ∈ wanted.listOf name
  ascending : ∀ name values, changes.listAdds.get? name = some values ∨
    changes.listRemoves.get? name = some values → values.Pairwise (· < ·) ∧ values ≠ []
  scalars : ∀ name v, changes.scalars.get? name = some v ↔
    state ≠ .absent ∧ (wanted.get? name = some (.scalar v) ∧ current.scalarOf name ≠ v ∨
      state = .exact ∧ v = .null ∧ wanted.get? name = none ∧ current.scalarOf name ≠ .null)

/-! ## Lists -/

theorem mem_getD_selected {keep : Scalar → Bool} {values : List Scalar} :
    v ∈ (selected keep values).getD [] ↔ v ∈ values ∧ keep v = true := by
  cases h : selected keep values with
  | none =>
    simp only [Option.getD_none, List.not_mem_nil, false_iff, not_and, Bool.not_eq_true]
    exact selected_eq_none_iff.1 h v
  | some kept => exact mem_of_selected h v

/-- The values of the lists of a view that pass. -/
def selectedLists (keep : String → Scalar → Bool) (view : Canonical) : Dict (List Scalar) :=
  view.filterMap fun name value ↦
    match value with
    | .list values => selected (keep name) values
    | .scalar _ => none

variable {keep : String → Scalar → Bool} {view : Canonical}

theorem mem_selectedLists_iff :
    v ∈ ((selectedLists keep view).get? name).getD [] ↔
      v ∈ view.listOf name ∧ keep name v = true := by
  unfold selectedLists
  rw [Dict.get?_filterMap, Canonical.listOf]
  cases view.get? name with
  | none => simp
  | some value =>
    cases value with
    | scalar value => simp
    | list values => exact mem_getD_selected

theorem ascending_of_selectedLists {values : List Scalar}
    (h : (selectedLists keep view).get? name = some values) :
    values.Pairwise (· < ·) ∧ values ≠ [] := by
  unfold selectedLists at h
  rw [Dict.get?_filterMap] at h
  obtain ⟨value, -, h⟩ := Option.bind_eq_some_iff.1 h
  cases value with
  | scalar value => simp at h
  | list raw =>
    obtain ⟨hne, rfl⟩ := selected_eq_some_iff.1 h
    exact ⟨Ascending.pairwise_ofList _, hne⟩

theorem missing_eq (current wanted : Canonical) : missing current wanted =
    selectedLists (fun name v ↦ !(current.valuesOf name).contains v) wanted := rfl

theorem shared_eq (current wanted : Canonical) : shared current wanted =
    selectedLists (fun name v ↦ (current.valuesOf name).contains v) wanted := rfl

theorem surplus_eq (current wanted : Canonical) :
    surplus current wanted = missing wanted current := rfl

/-- Two views agree on which attributes are lists. -/
def SameKinds (view view' : Canonical) : Prop :=
  ∀ name value value', view.get? name = some value → view'.get? name = some value' →
    value.isList = value'.isList

section

variable (hkinds : SameKinds current wanted)

include hkinds

theorem SameKinds.symm : SameKinds wanted current :=
  fun name value value' hvalue hvalue' ↦ (hkinds name value' value hvalue' hvalue).symm

theorem SameKinds.valuesOf_eq (hv : v ∈ wanted.listOf name) :
    current.valuesOf name = current.listOf name := by
  obtain ⟨values, hvalues, -⟩ := Canonical.mem_listOf_iff.1 hv
  exact Canonical.valuesOf_eq_listOf fun v hscalar ↦
    Bool.false_ne_true (hkinds name _ _ hscalar hvalues)

theorem mem_missing_iff : v ∈ ((missing current wanted).get? name).getD [] ↔
    v ∈ wanted.listOf name ∧ v ∉ current.listOf name := by
  rw [missing_eq, mem_selectedLists_iff]
  exact and_congr_right fun hv ↦ by simp [hkinds.valuesOf_eq hv]

theorem mem_shared_iff : v ∈ ((shared current wanted).get? name).getD [] ↔
    v ∈ current.listOf name ∧ v ∈ wanted.listOf name := by
  rw [shared_eq, mem_selectedLists_iff, and_comm (b := v ∈ wanted.listOf name)]
  exact and_congr_right fun hv ↦ by simp [hkinds.valuesOf_eq hv]

theorem mem_surplus_iff : v ∈ ((surplus current wanted).get? name).getD [] ↔
    v ∈ current.listOf name ∧ v ∉ wanted.listOf name := by
  rw [surplus_eq]
  exact mem_missing_iff hkinds.symm

end

/-! ## Scalars -/

theorem isNull_iff : v.isNull = true ↔ v = .null := by
  cases v <;> simp [Scalar.isNull]

theorem get?_assigned_iff : (assigned current wanted).get? name = some v ↔
    wanted.get? name = some (.scalar v) ∧ current.scalarOf name ≠ v := by
  unfold assigned
  rw [Dict.get?_filterMap]
  cases wanted.get? name with
  | none => simp
  | some value =>
    cases value with
    | list values => simp
    | scalar value =>
      simp only [Option.bind_some, Option.some.injEq, AttrValue.scalar.injEq]
      split
      next hsame => simp_all
      next hne =>
        rw [Option.some.injEq]
        exact ⟨fun h ↦ ⟨h, h ▸ hne⟩, fun h ↦ h.1⟩

theorem get?_cleared_iff : (cleared current wanted).get? name = some v ↔
    v = .null ∧ wanted.get? name = none ∧ current.scalarOf name ≠ .null := by
  unfold cleared
  rw [Dict.get?_filterMap, Canonical.scalarOf, Dict.contains]
  cases current.get? name with
  | none => simp
  | some value =>
    cases value with
    | list values => simp
    | scalar value =>
      simp only [Option.bind_some]
      split
      next hkept =>
        rw [Bool.or_eq_true, isNull_iff, Option.isSome_iff_ne_none] at hkept
        simp only [reduceCtorEq, false_iff, not_and]
        exact fun _ hnone hne ↦ hkept.elim hne fun h ↦ h hnone
      next hgone =>
        rw [Bool.or_eq_true, isNull_iff, Option.isSome_iff_ne_none, not_or, not_not] at hgone
        rw [Option.some.injEq]
        exact ⟨fun h ↦ ⟨h.symm, hgone.2, hgone.1⟩, fun h ↦ h.1.symm⟩

/-! ## Whole differences -/

/-- The changes between two views that agree on which attributes are lists. -/
theorem changes_isDifference (state : TargetState) (hkinds : SameKinds current wanted) :
    IsDifference state current wanted (changes state current wanted) := by
  cases state with
  | present | enabled | disabled =>
    refine ⟨fun name v ↦ ?_, fun name v ↦ by simp [changes], fun name values h ↦ ?_,
      fun name v ↦ ?_⟩
    · rw [changes, mem_missing_iff hkinds]
      simp
    · exact ascending_of_selectedLists (h.resolve_right (by simp [changes]))
    · rw [changes, get?_assigned_iff]
      simp
  | exact =>
    refine ⟨fun name v ↦ ?_, fun name v ↦ ?_, fun name values h ↦ ?_, fun name v ↦ ?_⟩
    · rw [changes, mem_missing_iff hkinds]
      simp
    · rw [changes, mem_surplus_iff hkinds]
      simp
    · exact h.elim ascending_of_selectedLists ascending_of_selectedLists
    · rw [changes, Dict.get?_insertMany_entries, Option.or_eq_some_iff, get?_cleared_iff,
        get?_assigned_iff]
      constructor
      · rintro (hcleared | ⟨-, hassigned⟩)
        · exact ⟨by simp, .inr ⟨rfl, hcleared⟩⟩
        · exact ⟨by simp, .inl hassigned⟩
      · rintro ⟨-, hassigned | ⟨-, hcleared⟩⟩
        · refine .inr ⟨Option.eq_none_iff_forall_ne_some.2 fun v hcleared ↦ ?_, hassigned⟩
          simp [(get?_cleared_iff.1 hcleared).2.1] at hassigned
        · exact .inl hcleared
  | absent =>
    refine ⟨fun name v ↦ by simp [changes], fun name v ↦ ?_, fun name values h ↦ ?_,
      fun name v ↦ by simp [changes]⟩
    · rw [changes, mem_shared_iff hkinds]
      simp
    · exact ascending_of_selectedLists (h.resolve_left (by simp [changes]))

/-- Changes leave out what neither view has. -/
theorem omits_changes (state : TargetState) (hcurrent : current.get? name = none)
    (hwanted : wanted.get? name = none) : (changes state current wanted).Omits name := by
  cases state <;>
    constructor <;>
      simp [changes, assigned, missing, surplus, cleared, shared, Dict.get?_insertMany_entries,
        Dict.get?_filterMap, hcurrent, hwanted]

/-! ## Nothing to change -/

/-- A view is as a request asks for: nothing requested is missing or different, for `exact` there is
nothing else, and for `absent` no requested list value is there. -/
structure Meets (state : TargetState) (current wanted : Canonical) : Prop where
  lists : state ≠ .absent → ∀ name, ∀ v ∈ wanted.listOf name, v ∈ current.listOf name
  scalars : state ≠ .absent →
    ∀ name v, wanted.get? name = some (.scalar v) → current.scalarOf name = v
  surplus : state = .exact → ∀ name, ∀ v ∈ current.listOf name, v ∈ wanted.listOf name
  cleared : state = .exact → ∀ name, wanted.get? name = none → current.scalarOf name = .null
  gone : state = .absent → ∀ name, ∀ v ∈ current.listOf name, v ∉ wanted.listOf name

section

variable {state : TargetState} {changes : ChangeSet}
  (found : IsDifference state current wanted changes)

include found

theorem IsDifference.lists_eq_empty {lists : Dict (List Scalar)}
    (hlists : lists = changes.listAdds ∨ lists = changes.listRemoves)
    (h : ∀ name v, v ∉ (lists.get? name).getD []) : lists = ∅ := by
  refine lists.eq_empty_iff.2 fun name ↦ Option.eq_none_iff_forall_ne_some.2 fun values hvalues ↦ ?_
  have hne := (found.ascending name values (by rcases hlists with rfl | rfl <;> simp [hvalues])).2
  obtain ⟨v, hv⟩ := List.exists_mem_of_ne_nil _ hne
  exact h name v (by rwa [hvalues])

/-- There is nothing to change exactly where the object is as requested. -/
theorem IsDifference.eq_empty_iff : changes = ∅ ↔ Meets state current wanted := by
  constructor
  · rintro rfl
    have hadds (name : String) (v : Scalar) := mt (found.adds name v).2 List.not_mem_nil
    have hremoves (name : String) (v : Scalar) := mt (found.removes name v).2 List.not_mem_nil
    have hscalars (name : String) (v : Scalar) := mt (found.scalars name v).2 (Option.some_ne_none v).symm
    constructor
    case lists => exact fun hstate name v hv ↦ by_contra fun h ↦ hadds name v ⟨hstate, hv, h⟩
    case scalars =>
      exact fun hstate name v hv ↦ by_contra fun h ↦ hscalars name v ⟨hstate, .inl ⟨hv, h⟩⟩
    case surplus =>
      exact fun hexact name v hv ↦ by_contra fun h ↦ hremoves name v (.inl ⟨hexact, hv, h⟩)
    case cleared =>
      refine fun hexact name hnone ↦ by_contra fun h ↦ hscalars name .null ?_
      exact ⟨by simp [hexact], .inr ⟨hexact, rfl, hnone, h⟩⟩
    case gone => exact fun habsent name v hv hwanted ↦ hremoves name v (.inr ⟨habsent, hv, hwanted⟩)
  · intro h
    have hscalars : changes.scalars = ∅ := by
      refine changes.scalars.eq_empty_iff.2 fun name ↦
        Option.eq_none_iff_forall_ne_some.2 fun v hv ↦ ?_
      obtain ⟨hstate, ⟨hwanted, hne⟩ | ⟨hexact, -, hnone, hne⟩⟩ := (found.scalars name v).1 hv
      · exact hne (h.scalars hstate name v hwanted)
      · exact hne (h.cleared hexact name hnone)
    have hadds : changes.listAdds = ∅ := found.lists_eq_empty (.inl rfl) fun name v hv ↦ by
      obtain ⟨hstate, hwanted, hmissing⟩ := (found.adds name v).1 hv
      exact hmissing (h.lists hstate name v hwanted)
    have hremoves : changes.listRemoves = ∅ := found.lists_eq_empty (.inr rfl) fun name v hv ↦ by
      rcases (found.removes name v).1 hv with ⟨hexact, hcurrent, hsurplus⟩ | ⟨habsent, hcurrent, hv⟩
      · exact hsurplus (h.surplus hexact name v hcurrent)
      · exact h.gone habsent name v hcurrent hv
    obtain ⟨_, _, _⟩ := changes
    cases hscalars
    cases hadds
    cases hremoves
    rfl

end

/-! ## Views -/

variable {declaration : Declaration} {object : RemoteObject} {desired : DesiredState}
  {action : Action} {value : AttrValue}

theorem Compared.of_unflagged {forced : Bool} {spec : AttributeSpec} (forced' : Bool)
    (hflag : declaration.isEnableAttribute spec.name = false)
    (h : Compared declaration action forced spec) : Compared declaration action forced' spec :=
  ⟨h.written, h.unnamed, fun henable ↦ by simp [hflag] at henable⟩

theorem Has.of_unflagged {forced : Bool} (forced' : Bool)
    (hflag : declaration.isEnableAttribute name = false)
    (h : Has declaration object action forced name value) :
    Has declaration object action forced' name value := by
  obtain ⟨spec, raw, hattribute, rfl, hcompared, hread⟩ := h
  exact ⟨spec, raw, hattribute, rfl, hcompared.of_unflagged forced' hflag, hread⟩

theorem not_has_flag (hflag : declaration.isEnableAttribute name = true) :
    ¬Has declaration object action false name value := by
  rintro ⟨spec, raw, -, rfl, hcompared, -⟩
  exact Bool.false_ne_true (hcompared.flag hflag)

theorem not_wants_flag (hflag : declaration.isEnableAttribute name = true) :
    ¬Wants declaration desired action name value := by
  rintro ⟨spec, raw, hspec, hcompared, -⟩
  have hname : spec.name = name := by simpa using List.find?_some hspec
  exact Bool.false_ne_true (hcompared.flag (hname ▸ hflag))

theorem isEnableAttribute_iff : declaration.isEnableAttribute name = true ↔
    ∃ flag, declaration.enable = some flag ∧ flag.attr = name := by
  simp [isEnableAttribute, Option.any_eq_true]

theorem get?_withStoredFlag_self {flag : EnableSpec} :
    (withStoredFlag flag current).get? flag.attr = some value ↔
      current.get? flag.attr = some value ∧ value ≠ .scalar .null ∨
        (∀ value, current.get? flag.attr = some value → value = .scalar .null) ∧
          value = .scalar (.bool (flag.storedValue true)) := by
  unfold withStoredFlag
  split
  next hnone => simp [hnone, eq_comm]
  next hnull => simp [hnull, eq_comm]
  next stored hnull hstored =>
    have hne : stored ≠ .scalar .null := hnull
    rw [hstored]
    simp only [Option.some.injEq, forall_eq', hne, false_and, or_false]
    exact ⟨fun h ↦ ⟨h, h ▸ hne⟩, And.left⟩

/-- The views that are compared are those of the object and of the request. -/
theorem views_spec (hnodup : (declaration.attributes.map (·.name)).Nodup)
    (h : views declaration object desired action = .ok (current, wanted)) :
    Views declaration object desired action current wanted := by
  obtain ⟨found, hfound, h⟩ := bind_eq_ok.1 h
  obtain ⟨requested, hrequested, h⟩ := bind_eq_ok.1 h
  have hhas (name : String) (value : AttrValue) : found.get? name = some value ↔
      Has declaration object action (forcedFlag declaration desired.state).isSome name value :=
    get?_canonicalCurrent_iff hnodup hfound
  have hwants (name : String) (value : AttrValue) : requested.get? name = some value ↔
      Wants declaration desired action name value := get?_canonicalDesired_iff hrequested
  cases hforced : forcedFlag declaration desired.state with
  | none =>
    simp only [hforced, Option.isSome_none] at h hhas
    obtain ⟨rfl, rfl⟩ := Prod.mk.inj (Except.ok.inj h)
    refine ⟨fun name value _ ↦ hhas name value, fun name value _ ↦ hwants name value,
      fun _ _ name hflag ↦ ⟨?_, ?_⟩, fun enabled flag hstate henable ↦ ?_⟩
    · exact Option.eq_none_iff_forall_ne_some.2 fun value hvalue ↦
        not_has_flag hflag ((hhas name value).1 hvalue)
    · exact Option.eq_none_iff_forall_ne_some.2 fun value hvalue ↦
        not_wants_flag hflag ((hwants name value).1 hvalue)
    · have hstate := TargetState.forcedEnable_eq_some_iff.2 hstate
      cases hforced.symm.trans (forcedFlag_eq_some_iff.2 ⟨hstate, henable⟩)
  | some forced =>
    obtain ⟨enabled, flag⟩ := forced
    obtain ⟨hstate, henable⟩ := forcedFlag_eq_some_iff.1 hforced
    simp only [hforced, Option.isSome_some] at h hhas
    obtain ⟨rfl, rfl⟩ := Prod.mk.inj (Except.ok.inj h)
    have hne {name : String} (hflag : declaration.isEnableAttribute name = false) :
        flag.attr ≠ name := fun heq ↦
      Bool.false_ne_true (hflag.symm.trans (isEnableAttribute_iff.2 ⟨flag, henable, heq⟩))
    refine ⟨fun name value hflag ↦ ?_, fun name value hflag ↦ ?_,
      fun henabled hdisabled ↦ ?_, fun enabled' flag' hstate' henable' ↦ ?_⟩
    · rw [get?_withStoredFlag (hne hflag), hhas]
      exact ⟨.of_unflagged false hflag, .of_unflagged true hflag⟩
    · rw [Dict.get?_insert, if_neg (hne hflag), hwants]
    · cases (TargetState.forcedEnable_eq_none_iff.2 ⟨henabled, hdisabled⟩).symm.trans hstate
    · cases hstate.symm.trans (TargetState.forcedEnable_eq_some_iff.2 hstate')
      cases henable.symm.trans henable'
      refine ⟨Dict.get?_insert_self _ _ _, fun value ↦ ?_⟩
      simp only [get?_withStoredFlag_self, hhas]

section

variable {schema : ObjectSchema}
  (hviews : Views schema.toDeclaration object desired action current wanted)

include hviews

/-- The two views agree on which attributes are lists. -/
theorem Views.sameKinds : SameKinds current wanted := by
  intro name value value' hvalue hvalue'
  cases hflag : schema.isEnableAttribute name with
  | false =>
    obtain ⟨spec, hspec, -, -, raw, -, hread⟩ :=
      ((hviews.has name value hflag).1 hvalue).exists_attribute
    obtain ⟨spec', raw', hspec', -, -, hread'⟩ := (hviews.wants name value' hflag).1 hvalue'
    cases hspec.symm.trans hspec'
    calc value.isList
      _ = spec.isList := (AttributeSpec.isList_of_canonical hread).symm
      _ = value'.isList := AttributeSpec.isList_of_canonical
        (AttributeSpec.normalize_eq_ok_iff.1 hread')
  | true =>
    obtain ⟨flag, henable, rfl⟩ := isEnableAttribute_iff.1 hflag
    cases hstate : desired.state.forcedEnable with
    | none =>
      obtain ⟨henabled, hdisabled⟩ := TargetState.forcedEnable_eq_none_iff.1 hstate
      rw [(hviews.unforced henabled hdisabled _ hflag).1] at hvalue
      simp at hvalue
    | some enabled =>
      obtain ⟨hwanted, hcurrent⟩ :=
        hviews.forced enabled flag (TargetState.forcedEnable_eq_some_iff.1 hstate) henable
      cases hwanted.symm.trans hvalue'
      rcases (hcurrent value).1 hvalue with ⟨hhas, -⟩ | ⟨-, rfl⟩
      · obtain ⟨spec, hspec, -, -, raw, -, hread⟩ := hhas.exists_attribute
        obtain ⟨own, hown, -, hscalar, -⟩ := schema.exists_flag henable
        cases hspec.symm.trans hown
        rw [← AttributeSpec.isList_of_canonical hread, hscalar]
        rfl
      · rfl

/-- No view has anything for an attribute of the identity. -/
theorem Views.get?_identity (hidentity : schema.isIdentity name = true) :
    current.get? name = none ∧ wanted.get? name = none := by
  have hflag : schema.isEnableAttribute name = false := by
    rw [← Bool.not_eq_true, isEnableAttribute_iff]
    rintro ⟨flag, henable, rfl⟩
    obtain ⟨spec, hspec, hunnamed, -⟩ := schema.exists_flag henable
    simp [isIdentity, hspec, hunnamed] at hidentity
  refine ⟨Option.eq_none_iff_forall_ne_some.2 fun value hvalue ↦ ?_,
    Option.eq_none_iff_forall_ne_some.2 fun value hvalue ↦ ?_⟩
  · obtain ⟨spec, hspec, -, hcompared, -⟩ :=
      ((hviews.has name value hflag).1 hvalue).exists_attribute
    simp [isIdentity, hspec, hcompared.unnamed] at hidentity
  · obtain ⟨spec, raw, hspec, hcompared, -⟩ := (hviews.wants name value hflag).1 hvalue
    simp [isIdentity, hspec, hcompared.unnamed] at hidentity

end

/-- Where no flag is forced, the views are compared as they are read. -/
theorem compute_of_unforced (hunforced : forcedFlag declaration desired.state = none) :
    compute declaration object desired action = (do
      let current ← canonicalCurrent declaration object action false
      let wanted ← canonicalDesired declaration desired action
      return changes desired.state current wanted) := by
  unfold compute views
  rw [hunforced]
  simp only [bind, Except.bind, pure, Except.pure, Option.isSome_none]
  cases canonicalCurrent declaration object action false with
  | error failure => rfl
  | ok current => cases canonicalDesired declaration desired action <;> rfl

/-- An object that cannot be read cannot be compared. -/
theorem compute_of_unread {failure : Failure} (hfails : canonicalCurrent declaration object action
    (forcedFlag declaration desired.state).isSome = .error failure) :
    compute declaration object desired action = .error failure := by
  simp only [compute, views, hfails, bind, Except.bind]

/-- A user as found. -/
def foundUser : RemoteObject := .ofList [("uid", .arr [.str "alice"]), ("sn", .arr [.str "Ashe"]),
  ("title", .arr [.str "Director"]), ("mail", .arr [.str "a@example.org", .str "b@example.org"])]

/-- A user as it is to be, with nothing else. -/
def exactUser : DesiredState :=
  { DesiredState.ofState .exact false with
    identity := .ofList [("uid", .scalar (.str "alice"))]
    attributes := .ofList [("sn", .scalar (.str "Ashe")), ("givenname", .scalar (.str "Alice")),
      ("mail", .list [.str "c@example.org", .str "b@example.org", .str "c@example.org"])] }

/-- The changes that make the user so. -/
def exactChanges : ChangeSet where
  scalars := .ofList [("givenname", .str "Alice"), ("title", .null)]
  listAdds := .ofList [("mail", [.str "c@example.org"])]
  listRemoves := .ofList [("mail", [.str "a@example.org"])]

end Difference

end DirectoryReconcile
