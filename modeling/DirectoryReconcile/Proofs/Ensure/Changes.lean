import DirectoryReconcile.Proofs.Ascending
import DirectoryReconcile.Proofs.Ensure.Views

/-!
# Planned changes

The flag of an object plays no part in the planned changes: it is compared with the forced one, but
has a call of its own. What is left is the difference between the view of the object and the
requested values. Every change comes from a requested value or from a value of the object.
-/

namespace DirectoryReconcile

namespace Ensure

open Declaration Difference

variable {declaration : Declaration} {desired : DesiredState} {identity : Identity}
  {texts : List String}

/-- The canonical values that a request has for the attributes an action looks at. -/
def wantedView (declaration : Declaration) (desired : DesiredState) (action : Action) : Canonical :=
  desired.attributes.filterMap fun name raw ↦
    (declaration.attribute? name).bind fun spec ↦
      if considers declaration action false spec then (spec.canonical raw.toJson).toOption else none

theorem Asks.get?_wantedView (regular : declaration.Regular) {spec : AttributeSpec}
    {scalars : List Scalar} (h : Asks declaration desired spec scalars) (action : Action) :
    (wantedView declaration desired action).get? spec.name =
      if considers declaration action false spec then some (spec.valueOf scalars) else none := by
  obtain ⟨raw, hraw, hcanonical⟩ := h.canonical
  rw [wantedView, Dict.get?_filterMap, hraw, Option.bind_some, regular.attribute?_of_mem h.mem,
    Option.bind_some, hcanonical]
  rfl

theorem get?_wantedView_of_none {name : String} (h : desired.attributes.get? name = none)
    (action : Action) : (wantedView declaration desired action).get? name = none := by
  unfold wantedView
  rw [Dict.get?_filterMap, h, Option.bind_none]

variable (regular : declaration.Regular) (valid : Valid declaration desired identity texts)

include regular valid

theorem get?_wantedView_eq_some {action : Action} {name : String} {value : AttrValue}
    (h : (wantedView declaration desired action).get? name = some value) :
    ∃ spec scalars, spec.name = name ∧ Asks declaration desired spec scalars ∧
      considers declaration action false spec = true ∧ value = spec.valueOf scalars := by
  cases hraw : desired.attributes.get? name with
  | none => simp [get?_wantedView_of_none hraw] at h
  | some raw =>
    obtain ⟨spec, scalars, rfl, hasks⟩ := valid.asks name raw hraw
    rw [hasks.get?_wantedView regular] at h
    split at h
    next hconsiders => exact ⟨spec, scalars, rfl, hasks, hconsiders, (Option.some.inj h).symm⟩
    next => simp at h

/-- The flag is never requested as an attribute. -/
theorem get?_wantedView_flag {flag : EnableSpec} (hflag : declaration.enable = some flag)
    (action : Action) : (wantedView declaration desired action).get? flag.attr = none := by
  cases h : (wantedView declaration desired action).get? flag.attr with
  | none => rfl
  | some value =>
    obtain ⟨spec, scalars, hname, hasks, -⟩ := get?_wantedView_eq_some regular valid h
    have hunflagged := hasks.unflagged
    simp [isEnableAttribute, hflag, hname] at hunflagged

theorem canonicalDesired_eq (action : Action) :
    canonicalDesired declaration desired action = .ok (wantedView declaration desired action) := by
  have hread : ∀ entry ∈ desired.attributes.entries,
      canonicalRequested declaration action entry.1 entry.2 =
        .ok (((wantedView declaration desired action).get? entry.1).map fun value ↦
          (entry.1, value)) := by
    rintro ⟨name, raw⟩ hentry
    have hraw := desired.attributes.mem_entries_iff.1 hentry
    obtain ⟨spec, scalars, rfl, hasks⟩ := valid.asks name raw hraw
    obtain ⟨raw', hraw', hcanonical⟩ := hasks.canonical
    cases hraw.symm.trans hraw'
    unfold canonicalRequested
    rw [regular.attribute?_of_mem hasks.mem, hasks.get?_wantedView regular]
    simp only
    split
    · rw [AttributeSpec.normalize_eq_ok_iff.2 hcanonical]
      rfl
    · rfl
  have hvalues : desired.attributes.entries.mapM (fun entry ↦
      canonicalRequested declaration action entry.1 entry.2) =
        .ok (desired.attributes.entries.map fun entry ↦
          ((wantedView declaration desired action).get? entry.1).map fun value ↦
            (entry.1, value)) := mapM_of_forall hread
  have hentries : (desired.attributes.entries.map fun entry ↦
      ((wantedView declaration desired action).get? entry.1).map fun value ↦
        (entry.1, value)).filterMap id = (wantedView declaration desired action).entries := by
    rw [List.filterMap_map, wantedView]
    apply List.filterMap_congr
    intro entry hentry
    rw [Function.comp_apply, id, Dict.get?_filterMap,
      desired.attributes.mem_entries_iff.1 hentry, Option.bind_some]
  unfold canonicalDesired
  simp only [hvalues, bind, Except.bind, pure, Except.pure, hentries, Dict.ofList_entries]

/-! ## The view of an object -/

omit valid in
/-- The view of an object has the values of the attributes that an action looks at. -/
theorem get?_canonicalCurrent {object : RemoteObject} {action : Action} {withFlag : Bool}
    {current : Canonical}
    (h : canonicalCurrent declaration object action withFlag = .ok current) {name : String}
    {value : AttrValue} : current.get? name = some value ↔ ∃ spec ∈ declaration.attributes,
      spec.name = name ∧ considers declaration action withFlag spec = true ∧
        ∃ raw, object.get? spec.responseKey = some raw ∧ spec.canonical raw = .ok value := by
  rw [get?_canonicalCurrent_iff regular.names_nodup h]
  constructor
  · rintro ⟨spec, raw, hattribute, hname, hcompared, hget, hread⟩
    exact ⟨spec, List.mem_of_find?_eq_some hattribute, hname, considers_iff.2 hcompared, raw, hget,
      AttributeSpec.normalize_eq_ok_iff.1 hread⟩
  · rintro ⟨spec, hspec, hname, hconsiders, raw, hget, hread⟩
    exact ⟨spec, raw, regular.attributeOfResponseKey?_of_mem hspec, hname,
      considers_iff.1 hconsiders, hget, AttributeSpec.normalize_eq_ok_iff.2 hread⟩

omit regular valid in
theorem canonicalCurrent_isOk {object : RemoteObject} {action : Action} {withFlag : Bool}
    (h : ∀ spec ∈ declaration.attributes, ∀ raw, object.get? spec.responseKey = some raw →
      ∃ value, spec.canonical raw = .ok value) :
    ∃ current, canonicalCurrent declaration object action withFlag = .ok current := by
  rw [canonicalCurrent_eq]
  refine Exists.elim (exists_mapM_iff.2 ?_) fun values hvalues ↦ ⟨_, bind_eq_ok.2 ⟨values, hvalues, rfl⟩⟩
  rintro ⟨spec, raw⟩ hpair
  obtain ⟨hattribute, -, hget⟩ := mem_considered.1 hpair
  obtain ⟨value, hvalue⟩ := h spec (List.mem_of_find?_eq_some hattribute) raw hget
  exact ⟨_, bind_eq_ok.2 ⟨value, AttributeSpec.normalize_eq_ok_iff.2 hvalue, rfl⟩⟩

/-! ## The plan -/

omit regular valid in
theorem get?_withStoredFlag {flag : EnableSpec} {name : String} (h : flag.attr ≠ name)
    (current : Canonical) : (withStoredFlag flag current).get? name = current.get? name := by
  unfold withStoredFlag
  split
  · rw [Dict.get?_insert, if_neg h]
  · rw [Dict.get?_insert, if_neg h]
  · rfl

omit regular valid in
theorem forcedFlag_eq_some_iff {state : TargetState} {enabled : Bool} {flag : EnableSpec} :
    forcedFlag declaration state = some (enabled, flag) ↔
      state.forcedEnable = some enabled ∧ declaration.enable = some flag := by
  simp [forcedFlag, Option.bind_eq_some_iff]

/-- The values of the flag are left out, whatever the object has. -/
theorem withoutFlag_changes {enabled : Bool} {flag : EnableSpec}
    (hforced : forcedFlag declaration desired.state = some (enabled, flag)) (action : Action)
    (current : Canonical) (b : Bool) :
    withoutFlag declaration desired.state (changes desired.state (withStoredFlag flag current)
        ((wantedView declaration desired action).insert flag.attr (.scalar (.bool b)))) =
      changes desired.state current (wantedView declaration desired action) := by
  obtain ⟨hstate, henable⟩ := forcedFlag_eq_some_iff.1 hforced
  have hnone := get?_wantedView_flag regular valid henable action
  generalize wantedView declaration desired action = wanted at hnone
  have hassigned : (assigned (withStoredFlag flag current)
      (wanted.insert flag.attr (.scalar (.bool b)))).erase flag.attr = assigned current wanted := by
    apply Dict.ext
    intro name
    rw [Dict.get?_erase, assigned, assigned, Dict.get?_filterMap, Dict.get?_filterMap]
    split
    next heq => rw [← heq, hnone, Option.bind_none]
    next hne =>
      rw [Dict.get?_insert, if_neg hne, Canonical.scalarOf, Canonical.scalarOf,
        get?_withStoredFlag hne]
  have hmissing : missing (withStoredFlag flag current)
      (wanted.insert flag.attr (.scalar (.bool b))) = missing current wanted := by
    apply Dict.ext
    intro name
    rw [missing, missing, Dict.get?_filterMap, Dict.get?_filterMap, Dict.get?_insert]
    split
    next heq => rw [← heq, hnone, Option.bind_none, Option.bind_some]
    next hne => rw [Canonical.valuesOf, Canonical.valuesOf, get?_withStoredFlag hne]
  unfold withoutFlag
  rw [hforced]
  cases hcase : desired.state <;> simp [hcase, TargetState.forcedEnable] at hstate <;>
    simp only [changes, hassigned, hmissing]

theorem compute_withoutFlag (found : RemoteObject) (action : Action) :
    (do
      let changes ← compute declaration found desired action
      return withoutFlag declaration desired.state changes) = (do
      let current ← canonicalCurrent declaration found action
        (forcedFlag declaration desired.state).isSome
      return changes desired.state current (wantedView declaration desired action)) := by
  unfold compute
  rw [views, canonicalDesired_eq regular valid]
  simp only [bind, Except.bind, pure, Except.pure]
  cases canonicalCurrent declaration found action (forcedFlag declaration desired.state).isSome with
  | error failure => rfl
  | ok current =>
    cases hforced : forcedFlag declaration desired.state with
    | none => simp only [withoutFlag, hforced]
    | some forced =>
      exact congrArg Except.ok (withoutFlag_changes regular valid hforced action current _)

/-- What is planned for an object that meets the conditions of the request. -/
theorem plan_eq (found : RemoteObject) :
    plan declaration desired found = (do
      if desired.state ≠ .absent then
        checkApplicability declaration found desired (actionFor found)
      let current ← canonicalCurrent declaration found (actionFor found)
        (forcedFlag declaration desired.state).isSome
      return changes desired.state current
        (wantedView declaration desired (actionFor found))) := by
  unfold plan
  simp only [compute_withoutFlag regular valid]

theorem plan_eq_ok {found : RemoteObject} {changes : ChangeSet} :
    plan declaration desired found = .ok changes ↔
      (desired.state ≠ .absent →
        checkApplicability declaration found desired (actionFor found) = .ok ()) ∧
      ∃ current, canonicalCurrent declaration found (actionFor found)
        (forcedFlag declaration desired.state).isSome = .ok current ∧
          changes = Difference.changes desired.state current
            (wantedView declaration desired (actionFor found)) := by
  rw [plan_eq regular valid]
  by_cases hstate : desired.state = .absent
  · simp only [hstate, ne_eq, not_true_eq_false, if_false, bind_eq_ok, false_implies,
      true_and]
    simp only [pure, Except.pure, Except.ok.injEq, eq_comm]
  · simp only [ne_eq, hstate, not_false_eq_true, if_true, bind_eq_ok, true_implies]
    simp only [pure, Except.pure, Except.ok.injEq, eq_comm]
    constructor
    · rintro ⟨⟨⟩, hcheck, h⟩
      exact ⟨hcheck, h⟩
    · rintro ⟨hcheck, h⟩
      exact ⟨(), hcheck, h⟩

/-! ## Where changes come from -/

/-- Every change is a requested value, or it clears or removes values of the object. -/
structure Comes (declaration : Declaration) (desired : DesiredState) (changes : ChangeSet) :
    Prop where
  scalars : ∀ name v, changes.scalars.get? name = some v → ∃ spec ∈ declaration.attributes,
    spec.name = name ∧ spec.identity = false ∧ spec.isList = false ∧ (v = .null ∨ spec.Keeps v)
  adds : ∀ name values, changes.listAdds.get? name = some values →
    ∃ spec scalars, spec.name = name ∧ spec.isList = true ∧ Asks declaration desired spec scalars ∧
      values ≠ [] ∧ values.Nodup ∧ ∀ v ∈ values, v ∈ scalars
  removes : ∀ name values, changes.listRemoves.get? name = some values →
    ∃ spec ∈ declaration.attributes, spec.name = name ∧ spec.isList = true

theorem get?_assigned {current : Canonical} {action : Action} {name : String} {v : Scalar}
    (h : (assigned current (wantedView declaration desired action)).get? name = some v) :
    ∃ spec scalars, spec.name = name ∧ spec.isList = false ∧
      Asks declaration desired spec scalars ∧ considers declaration action false spec = true ∧
        v = scalars.headD .null ∧ current.scalarOf name ≠ v := by
  unfold assigned at h
  rw [Dict.get?_filterMap] at h
  obtain ⟨value, hvalue, h⟩ := Option.bind_eq_some_iff.1 h
  obtain ⟨spec, scalars, rfl, hasks, hconsiders, rfl⟩ := get?_wantedView_eq_some regular valid hvalue
  cases hlist : spec.isList with
  | true => simp [AttributeSpec.valueOf_of_isList hlist] at h
  | false =>
    rw [AttributeSpec.valueOf_of_not_isList hlist] at h
    simp only at h
    split at h
    · simp at h
    next hne =>
      cases Option.some.inj h
      exact ⟨spec, scalars, rfl, hlist, hasks, hconsiders, rfl, hne⟩

/-- The requested list values that pass, such as those missing or those shared. -/
theorem get?_selected {keep : String → Scalar → Bool} {action : Action} {name : String}
    {values : List Scalar}
    (h : ((wantedView declaration desired action).filterMap fun name value ↦
      match value with
      | .list values => selected (keep name) values
      | .scalar _ => none).get? name = some values) :
    ∃ spec scalars, spec.name = name ∧ spec.isList = true ∧
      Asks declaration desired spec scalars ∧ selected (keep name) scalars = some values := by
  rw [Dict.get?_filterMap] at h
  obtain ⟨value, hvalue, h⟩ := Option.bind_eq_some_iff.1 h
  obtain ⟨spec, scalars, rfl, hasks, -, rfl⟩ := get?_wantedView_eq_some regular valid hvalue
  cases hlist : spec.isList with
  | true =>
    rw [AttributeSpec.valueOf_of_isList hlist] at h
    exact ⟨spec, scalars, rfl, hlist, hasks, h⟩
  | false => simp [AttributeSpec.valueOf_of_not_isList hlist] at h

section

variable {current : Canonical} {action : Action} {name : String}

theorem assigned_comes {v : Scalar}
    (h : (assigned current (wantedView declaration desired action)).get? name = some v) :
    ∃ spec ∈ declaration.attributes, spec.name = name ∧ spec.identity = false ∧
      spec.isList = false ∧ (v = .null ∨ spec.Keeps v) := by
  obtain ⟨spec, scalars, hname, hlist, hasks, -, rfl, -⟩ := get?_assigned regular valid h
  refine ⟨spec, hasks.mem, hname, hasks.identity, hlist, ?_⟩
  cases scalars with
  | nil => exact .inl rfl
  | cons v rest => exact .inr (hasks.keeps v List.mem_cons_self)

theorem missing_comes {values : List Scalar}
    (h : (missing current (wantedView declaration desired action)).get? name = some values) :
    ∃ spec scalars, spec.name = name ∧ spec.isList = true ∧ Asks declaration desired spec scalars ∧
      values ≠ [] ∧ values.Nodup ∧ ∀ v ∈ values, v ∈ scalars := by
  obtain ⟨spec, scalars, hname, hlist, hasks, hselected⟩ := get?_selected regular valid h
  obtain ⟨hne, rfl⟩ := selected_eq_some_iff.1 hselected
  exact ⟨spec, scalars, hname, hlist, hasks, hne, Ascending.nodup_ofList _,
    fun v hv ↦ ((mem_of_selected hselected v).1 hv).1⟩

variable {object : RemoteObject} {withFlag : Bool}
  (hcurrent : canonicalCurrent declaration object action withFlag = .ok current)

include hcurrent

omit valid in
theorem surplus_comes {wanted : Canonical} {values : List Scalar}
    (h : (surplus current wanted).get? name = some values) :
    ∃ spec ∈ declaration.attributes, spec.name = name ∧ spec.isList = true := by
  unfold surplus at h
  rw [Dict.get?_filterMap] at h
  obtain ⟨value, hvalue, h⟩ := Option.bind_eq_some_iff.1 h
  obtain ⟨spec, hspec, hname, -, raw, -, hread⟩ := (get?_canonicalCurrent regular hcurrent).1 hvalue
  cases value with
  | scalar value => simp at h
  | list values => exact ⟨spec, hspec, hname, AttributeSpec.isList_of_canonical hread⟩

omit valid in
theorem cleared_comes {wanted : Canonical} {v : Scalar}
    (h : (cleared current wanted).get? name = some v) :
    ∃ spec ∈ declaration.attributes, spec.name = name ∧ spec.identity = false ∧
      spec.isList = false ∧ v = .null := by
  unfold cleared at h
  rw [Dict.get?_filterMap] at h
  obtain ⟨value, hvalue, h⟩ := Option.bind_eq_some_iff.1 h
  obtain ⟨spec, hspec, hname, hconsiders, raw, -, hread⟩ :=
    (get?_canonicalCurrent regular hcurrent).1 hvalue
  cases value with
  | list values => simp at h
  | scalar value =>
    simp only at h
    split at h
    next => simp at h
    next =>
      have hidentity : spec.identity = false := by
        simp only [considers, Bool.and_eq_true, Bool.not_eq_true'] at hconsiders
        exact hconsiders.1.1
      exact ⟨spec, hspec, hname, hidentity, AttributeSpec.isList_of_canonical hread,
        (Option.some.inj h).symm⟩

end

theorem comes_of_plan {found : RemoteObject} {changes : ChangeSet}
    (h : plan declaration desired found = .ok changes) : Comes declaration desired changes := by
  obtain ⟨-, current, hcurrent, rfl⟩ := (plan_eq_ok regular valid).1 h
  cases hstate : desired.state with
  | present | enabled | disabled =>
    exact ⟨fun _ _ ↦ assigned_comes regular valid, fun _ _ ↦ missing_comes regular valid,
      fun name values h ↦ by simp [Difference.changes] at h⟩
  | exact =>
    refine ⟨fun name v h ↦ ?_, fun _ _ ↦ missing_comes regular valid,
      fun _ _ ↦ surplus_comes regular hcurrent⟩
    unfold Difference.changes at h
    rw [Dict.get?_insertMany_entries] at h
    rcases Option.or_eq_some_iff.1 h with h | ⟨-, h⟩
    · obtain ⟨spec, hspec, hname, hidentity, hlist, hnull⟩ := cleared_comes regular hcurrent h
      exact ⟨spec, hspec, hname, hidentity, hlist, .inl hnull⟩
    · exact assigned_comes regular valid h
  | absent =>
    refine ⟨fun name v h ↦ by simp [Difference.changes] at h,
      fun name values h ↦ by simp [Difference.changes] at h, fun name values h ↦ ?_⟩
    obtain ⟨spec, scalars, hname, hlist, hasks, -⟩ := get?_selected regular valid h
    exact ⟨spec, hasks.mem, hname, hlist⟩

end Ensure

end DirectoryReconcile
