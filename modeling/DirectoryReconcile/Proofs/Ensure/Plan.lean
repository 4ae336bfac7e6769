import DirectoryReconcile.Proofs.Ensure.Shown

/-!
# Plans attribute by attribute

What a run plans for an attribute depends on the scalars that the object stores of it and on those
that the request has for it, and on no other attribute.
-/

namespace DirectoryReconcile

namespace Ensure

open Declaration Entry Difference

variable {declaration : Declaration} {desired : DesiredState} {held : Option Entry}
  {spec : AttributeSpec} {identity : Identity} {texts : List String}
  {allowed : String → Scalar → Prop} {action : Action} {changes : ChangeSet}

/-- The scalars that a request has for an attribute, if it has the attribute at all. -/
def asked (desired : DesiredState) (spec : AttributeSpec) : Option (List Scalar) :=
  (desired.attributes.get? spec.name).bind fun raw ↦
    (spec.canonical raw.toJson).toOption.map fun value ↦ value.values.filter fun v ↦ !v.isNull

theorem Asks.asked_eq {scalars : List Scalar} (h : Asks declaration desired spec scalars) :
    asked desired spec = some scalars := by
  obtain ⟨raw, hraw, hcanonical⟩ := h.canonical
  have hkept : scalars.filter (fun v ↦ !v.isNull) = scalars :=
    List.filter_eq_self.2 fun v hv ↦ by
      have hnull := (h.keeps v hv).ne_null
      cases v <;> simp_all [Scalar.isNull]
  unfold asked
  rw [hraw, Option.bind_some, hcanonical]
  simp only [Except.toOption, Option.map_some, Option.some.injEq]
  cases hlist : spec.isList with
  | true => rw [AttributeSpec.valueOf_of_isList hlist, AttrValue.values, hkept]
  | false =>
    rw [AttributeSpec.valueOf_of_not_isList hlist, AttrValue.values]
    have hshort := h.short (AttributeSpec.cardinality_of_not_isList hlist)
    rcases scalars with - | ⟨v, - | ⟨w, rest⟩⟩
    · rfl
    · exact hkept
    · simp at hshort

theorem asks_of_asked (valid : Valid declaration desired identity texts) (regular : declaration.Regular)
    (hspec : spec ∈ declaration.attributes) {scalars : List Scalar}
    (h : asked desired spec = some scalars) : Asks declaration desired spec scalars := by
  obtain ⟨raw, hraw, -⟩ := Option.bind_eq_some_iff.1 h
  obtain ⟨other, scalars', hname, hasks⟩ := valid.asks _ raw hraw
  obtain rfl := regular.eq_of_name_eq hasks.mem hspec hname
  cases hasks.asked_eq.symm.trans h
  exact hasks

/-- The list values to add. -/
def addsAt (desired : DesiredState) (held : Option Entry) (spec : AttributeSpec) :
    Option (List Scalar) :=
  if desired.state = .absent then none
  else (asked desired spec).bind (selected fun v ↦ !(stock held spec).contains v)

/-- The list values to remove. -/
def removesAt (desired : DesiredState) (held : Option Entry) (spec : AttributeSpec) :
    Option (List Scalar) :=
  match desired.state with
  | .exact => selected (fun v ↦ !((asked desired spec).getD []).contains v) (stock held spec)
  | .absent => (asked desired spec).bind (selected fun v ↦ (stock held spec).contains v)
  | .present | .enabled | .disabled => none

/-- The scalar to assign, null to clear the attribute. -/
def assignsAt (declaration : Declaration) (desired : DesiredState) (action : Action)
    (held : Option Entry) (spec : AttributeSpec) : Option Scalar :=
  if desired.state = .absent ∨ considers declaration action false spec = false then none
  else
    match asked desired spec with
    | some scalars =>
      if (stock held spec).headD .null = scalars.headD .null then none
      else some (scalars.headD .null)
    | none => if desired.state = .exact ∧ stock held spec ≠ [] then some .null else none

/-- Changes that do to each attribute what is planned for it. -/
structure Planned (declaration : Declaration) (desired : DesiredState) (action : Action)
    (held : Option Entry) (changes : ChangeSet) : Prop where
  adds : ∀ spec ∈ declaration.attributes, changes.listAdds.get? spec.name =
    if spec.isList then addsAt desired held spec else none
  removes : ∀ spec ∈ declaration.attributes, changes.listRemoves.get? spec.name =
    if spec.isList then removesAt desired held spec else none
  scalars : ∀ spec ∈ declaration.attributes, changes.scalars.get? spec.name =
    if spec.isList then none else assignsAt declaration desired action held spec
  undeclared : ∀ name, declaration.attribute? name = none → changes.listAdds.get? name = none ∧
    changes.listRemoves.get? name = none ∧ changes.scalars.get? name = none

/-- Dictionaries by attribute name that agree on every attribute. -/
theorem dict_ext (regular : declaration.Regular) {α : Type} {first second : Dict α}
    (h : ∀ spec ∈ declaration.attributes, first.get? spec.name = second.get? spec.name)
    (hfirst : ∀ name, declaration.attribute? name = none → first.get? name = none)
    (hsecond : ∀ name, declaration.attribute? name = none → second.get? name = none) :
    first = second := by
  apply Dict.ext
  intro name
  cases hname : declaration.attribute? name with
  | none => rw [hfirst name hname, hsecond name hname]
  | some spec =>
    obtain ⟨hspec, rfl⟩ := regular.attribute?_eq_some_iff.1 hname
    exact h spec hspec

variable (regular : declaration.Regular)

include regular

theorem dict_eq_empty_iff {α : Type} {dict : Dict α}
    (hundeclared : ∀ name, declaration.attribute? name = none → dict.get? name = none) :
    dict = ∅ ↔ ∀ spec ∈ declaration.attributes, dict.get? spec.name = none := by
  refine ⟨?_, fun h ↦ dict_ext regular h hundeclared fun _ _ ↦ rfl⟩
  rintro rfl spec -
  rfl

theorem Planned.listAdds_eq_empty_iff (h : Planned declaration desired action held changes) :
    changes.listAdds = ∅ ↔
      ∀ spec ∈ declaration.attributes, spec.isList = true → addsAt desired held spec = none := by
  rw [dict_eq_empty_iff regular fun name hname ↦ (h.undeclared name hname).1]
  refine forall₂_congr fun spec hspec ↦ ?_
  rw [h.adds spec hspec, ite_eq_right_iff]

theorem Planned.listRemoves_eq_empty_iff (h : Planned declaration desired action held changes) :
    changes.listRemoves = ∅ ↔
      ∀ spec ∈ declaration.attributes, spec.isList = true → removesAt desired held spec = none := by
  rw [dict_eq_empty_iff regular fun name hname ↦ (h.undeclared name hname).2.1]
  refine forall₂_congr fun spec hspec ↦ ?_
  rw [h.removes spec hspec, ite_eq_right_iff]

theorem Planned.scalars_eq_empty_iff (h : Planned declaration desired action held changes) :
    changes.scalars = ∅ ↔ ∀ spec ∈ declaration.attributes, spec.isList = false →
      assignsAt declaration desired action held spec = none := by
  rw [dict_eq_empty_iff regular fun name hname ↦ (h.undeclared name hname).2.2]
  refine forall₂_congr fun spec hspec ↦ ?_
  rw [h.scalars spec hspec, ite_eq_left_iff, Bool.not_eq_true]

/-- Lists are looked at whenever an object is written. -/
theorem considers_of_isList (hspec : spec ∈ declaration.attributes) (hlist : spec.isList = true)
    (haction : action = .add ∨ action = .modify) (withFlag : Bool) :
    considers declaration action withFlag spec = true := by
  obtain ⟨-, hidentity, hadd, hmodify⟩ := regular.list_text spec hspec hlist
  have happlies : spec.appliesTo action = true := by
    rcases haction with rfl | rfl
    · exact hadd
    · exact hmodify
  simp [considers, hidentity, happlies, regular.list_unflagged hspec hlist]

omit regular in
theorem considers_withFlag (h : considers declaration action false spec = true) (withFlag : Bool) :
    considers declaration action withFlag spec = true := by
  simp only [considers, Bool.and_eq_true, Bool.false_or] at h ⊢
  exact ⟨h.1, by rw [h.2, Bool.or_true]⟩

/-! ## Views -/

variable {withFlag : Bool} {current : Canonical}

theorem Views.valuesOf_eq (views : Views declaration action withFlag held current)
    (haction : action = .add ∨ action = .modify) (hspec : spec ∈ declaration.attributes)
    (hlist : spec.isList = true) : current.valuesOf spec.name = stock held spec := by
  have hconsiders := considers_of_isList regular hspec hlist haction withFlag
  unfold Canonical.valuesOf
  rw [views.declared spec hspec]
  by_cases hempty : stock held spec = []
  · simp [hempty]
  · simp [hconsiders, hempty, AttributeSpec.valueOf_of_isList hlist, AttrValue.values]

omit regular in
theorem Views.scalarOf_eq (views : Views declaration action withFlag held current)
    (hspec : spec ∈ declaration.attributes) (hlist : spec.isList = false)
    (hconsiders : considers declaration action false spec = true) :
    current.scalarOf spec.name = (stock held spec).headD .null := by
  unfold Canonical.scalarOf
  rw [views.declared spec hspec]
  by_cases hempty : stock held spec = []
  · simp [hempty]
  · simp [considers_withFlag hconsiders, hempty, AttributeSpec.valueOf_of_not_isList hlist]

variable (valid : Valid declaration desired identity texts)

include valid

theorem get?_wantedView (hspec : spec ∈ declaration.attributes) (action : Action) :
    (wantedView declaration desired action).get? spec.name =
      if considers declaration action false spec then (asked desired spec).map spec.valueOf
      else none := by
  cases hasked : asked desired spec with
  | none =>
    have hnone : desired.attributes.get? spec.name = none := by
      cases hraw : desired.attributes.get? spec.name with
      | none => rfl
      | some raw =>
        obtain ⟨other, scalars, hname, hasks⟩ := valid.asks _ raw hraw
        obtain rfl := regular.eq_of_name_eq hasks.mem hspec hname
        simp [hasks.asked_eq] at hasked
    rw [get?_wantedView_of_none hnone]
    simp
  | some scalars =>
    rw [(asks_of_asked valid regular hspec hasked).get?_wantedView regular, Option.map_some]

theorem get?_wantedView_undeclared {name : String} (hname : declaration.attribute? name = none)
    (action : Action) : (wantedView declaration desired action).get? name = none := by
  cases h : (wantedView declaration desired action).get? name with
  | none => rfl
  | some value =>
    obtain ⟨spec, scalars, rfl, hasks, -⟩ := get?_wantedView_eq_some regular valid h
    simp [regular.attribute?_of_mem hasks.mem] at hname

theorem valuesOf_wantedView (haction : action = .add ∨ action = .modify)
    (hspec : spec ∈ declaration.attributes) (hlist : spec.isList = true) :
    (wantedView declaration desired action).valuesOf spec.name = (asked desired spec).getD [] := by
  rw [Canonical.valuesOf, get?_wantedView regular valid hspec,
    considers_of_isList regular hspec hlist haction, if_pos rfl]
  cases asked desired spec with
  | none => rfl
  | some scalars => simp [AttributeSpec.valueOf_of_isList hlist, AttrValue.values]

/-! ## The difference attribute by attribute -/

/-- The requested list values that pass, such as those missing or those shared. -/
theorem get?_selectedLists (haction : action = .add ∨ action = .modify)
    (keep : String → Scalar → Bool) (hspec : spec ∈ declaration.attributes) :
    ((wantedView declaration desired action).filterMap fun name value ↦
      match value with
      | .list values => selected (keep name) values
      | .scalar _ => none).get? spec.name =
        if spec.isList then (asked desired spec).bind (selected (keep spec.name)) else none := by
  rw [Dict.get?_filterMap, get?_wantedView regular valid hspec]
  cases hlist : spec.isList with
  | true =>
    rw [considers_of_isList regular hspec hlist haction]
    simp only [if_true, Option.bind_map]
    refine congrArg _ (funext fun scalars ↦ ?_)
    simp [AttributeSpec.valueOf_of_isList hlist]
  | false =>
    cases considers declaration action false spec <;>
      cases asked desired spec <;> simp [AttributeSpec.valueOf_of_not_isList hlist]

theorem get?_assignedScalars (views : Views declaration action withFlag held current)
    (hspec : spec ∈ declaration.attributes) :
    (assigned current (wantedView declaration desired action)).get? spec.name =
      if spec.isList = true ∨ considers declaration action false spec = false then none
      else (asked desired spec).bind fun scalars ↦
        if (stock held spec).headD .null = scalars.headD .null then none
        else some (scalars.headD .null) := by
  unfold assigned
  rw [Dict.get?_filterMap, get?_wantedView regular valid hspec]
  cases hlist : spec.isList with
  | true =>
    cases considers declaration action false spec <;>
      cases asked desired spec <;> simp [AttributeSpec.valueOf_of_isList hlist]
  | false =>
    cases hconsiders : considers declaration action false spec with
    | false => simp
    | true =>
      simp only [if_true, Option.bind_map]
      refine congrArg _ (funext fun scalars ↦ ?_)
      simp only [Function.comp_apply, AttributeSpec.valueOf_of_not_isList hlist,
        views.scalarOf_eq hspec hlist hconsiders]

omit valid in
theorem get?_surplus (views : Views declaration action withFlag held current)
    (haction : action = .add ∨ action = .modify) {wanted : Canonical} {values : List Scalar}
    (hspec : spec ∈ declaration.attributes)
    (hwanted : spec.isList = true → wanted.valuesOf spec.name = values) :
    (surplus current wanted).get? spec.name =
      if spec.isList then selected (fun v ↦ !values.contains v) (stock held spec) else none := by
  unfold surplus
  rw [Dict.get?_filterMap, views.declared spec hspec]
  cases hlist : spec.isList with
  | true =>
    rw [considers_of_isList regular hspec hlist haction]
    by_cases hempty : stock held spec = []
    · simp [hempty, selected, Ascending.ofList]
    · simp [hempty, AttributeSpec.valueOf_of_isList hlist, hwanted hlist]
  | false =>
    split
    · simp [AttributeSpec.valueOf_of_not_isList hlist]
    · simp

theorem get?_clearedScalars (views : Views declaration action false held current)
    (hheld : ∀ entry ∈ held, entry.Sound declaration allowed)
    (hspec : spec ∈ declaration.attributes) :
    (cleared current (wantedView declaration desired action)).get? spec.name =
      if spec.isList = true ∨ considers declaration action false spec = false then none
      else if asked desired spec = none ∧ stock held spec ≠ [] then some .null else none := by
  unfold cleared
  rw [Dict.get?_filterMap, views.declared spec hspec]
  cases hlist : spec.isList with
  | true =>
    split
    · simp [AttributeSpec.valueOf_of_isList hlist]
    · simp
  | false =>
    cases hconsiders : considers declaration action false spec with
    | false => simp
    | true =>
      by_cases hempty : stock held spec = []
      · simp [hempty]
      · have hcontains : (wantedView declaration desired action).contains spec.name =
            (asked desired spec).isSome := by
          rw [Dict.contains, get?_wantedView regular valid hspec, hconsiders, if_pos rfl,
            Option.isSome_map]
        have hnull : ((stock held spec).headD .null).isNull = false := by
          obtain ⟨entry, rfl⟩ : ∃ entry, held = some entry := by
            cases held with
            | none => exact absurd rfl hempty
            | some entry => exact ⟨entry, rfl⟩
          have hstocks := (hheld entry rfl).stored.stocks regular hspec hempty
          cases hstock : stock (some entry) spec with
          | nil => exact absurd hstock hempty
          | cons v rest =>
            have hv : v ∈ stock (some entry) spec := hstock ▸ List.mem_cons_self
            have hne := (hstocks.keeps v hv).ne_null
            cases v <;> simp_all [Scalar.isNull]
        simp only [true_and, hempty, ne_eq, not_false_eq_true, if_true, Option.bind_some,
          AttributeSpec.valueOf_of_not_isList hlist, hnull, hcontains, Bool.false_or]
        cases asked desired spec <;> simp

/-! ## The whole difference -/

theorem get?_missingLists (views : Views declaration action withFlag held current)
    (haction : action = .add ∨ action = .modify) (hstate : desired.state ≠ .absent)
    (hspec : spec ∈ declaration.attributes) :
    (missing current (wantedView declaration desired action)).get? spec.name =
      if spec.isList then addsAt desired held spec else none := by
  have hselected := get?_selectedLists regular valid haction
    (fun name v ↦ !(current.valuesOf name).contains v) hspec
  apply hselected.trans
  cases hlist : spec.isList with
  | true => simp only [if_true, addsAt, hstate, if_false, views.valuesOf_eq regular haction hspec hlist]
  | false => rfl

theorem get?_sharedLists (views : Views declaration action withFlag held current)
    (haction : action = .add ∨ action = .modify) (hspec : spec ∈ declaration.attributes) :
    (shared current (wantedView declaration desired action)).get? spec.name =
      if spec.isList then (asked desired spec).bind (selected fun v ↦ (stock held spec).contains v)
      else none := by
  have hselected := get?_selectedLists regular valid haction
    (fun name v ↦ (current.valuesOf name).contains v) hspec
  apply hselected.trans
  cases hlist : spec.isList with
  | true => simp only [if_true, views.valuesOf_eq regular haction hspec hlist]
  | false => rfl

omit regular valid in
theorem get?_filterMap_of_none {α β : Type} {dict : Dict α} {name : String}
    (h : dict.get? name = none) (f : String → α → Option β) :
    (dict.filterMap f).get? name = none := by
  rw [Dict.get?_filterMap, h, Option.bind_none]

/-- The difference between what is found and what is asked for is as planned. -/
theorem planned_changes
    (views : Views declaration action (forcedFlag declaration desired.state).isSome held current)
    (haction : action = .add ∨ action = .modify)
    (hheld : ∀ entry ∈ held, entry.Sound declaration allowed) :
    Planned declaration desired action held
      (Difference.changes desired.state current (wantedView declaration desired action)) := by
  have hundeclared (name : String) (hname : declaration.attribute? name = none) :
      (wantedView declaration desired action).get? name = none ∧ current.get? name = none :=
    ⟨get?_wantedView_undeclared regular valid hname action, views.undeclared name hname⟩
  have hassigned {spec : AttributeSpec} (hstate : desired.state ≠ .absent)
      (hexact : desired.state ≠ .exact) (hspec : spec ∈ declaration.attributes) :
      (assigned current (wantedView declaration desired action)).get? spec.name =
        if spec.isList then none else assignsAt declaration desired action held spec := by
    rw [get?_assignedScalars regular valid views hspec, assignsAt]
    cases spec.isList <;> cases considers declaration action false spec <;>
      cases asked desired spec <;> simp [hstate, hexact]
  cases hstate : desired.state with
  | present | enabled | disabled =>
    refine ⟨fun spec hspec ↦ ?_, fun spec hspec ↦ ?_, fun spec hspec ↦ ?_, fun name hname ↦ ?_⟩
    · exact get?_missingLists regular valid views haction (by simp [hstate]) hspec
    · simp [Difference.changes, removesAt, hstate]
    · exact hassigned (by simp [hstate]) (by simp [hstate]) hspec
    · obtain ⟨hwanted, -⟩ := hundeclared name hname
      exact ⟨get?_filterMap_of_none hwanted _, rfl, get?_filterMap_of_none hwanted _⟩
  | exact =>
    have hfalse : (forcedFlag declaration desired.state).isSome = false := by rw [hstate]; rfl
    rw [hfalse] at views
    refine ⟨fun spec hspec ↦ ?_, fun spec hspec ↦ ?_, fun spec hspec ↦ ?_, fun name hname ↦ ?_⟩
    · exact get?_missingLists regular valid views haction (by simp [hstate]) hspec
    · simp only [Difference.changes, removesAt, hstate]
      exact get?_surplus regular views haction hspec fun hlist ↦
        valuesOf_wantedView regular valid haction hspec hlist
    · simp only [Difference.changes, Dict.get?_insertMany_entries,
        get?_clearedScalars regular valid views hheld hspec,
        get?_assignedScalars regular valid views hspec, assignsAt, hstate]
      cases spec.isList <;> cases considers declaration action false spec <;>
        cases asked desired spec <;> simp
    · obtain ⟨hwanted, hcurrent⟩ := hundeclared name hname
      refine ⟨get?_filterMap_of_none hwanted _, get?_filterMap_of_none hcurrent _, ?_⟩
      simp only [Difference.changes, Dict.get?_insertMany_entries, cleared, assigned,
        get?_filterMap_of_none hwanted, get?_filterMap_of_none hcurrent, Option.or_none]
  | absent =>
    refine ⟨fun spec hspec ↦ ?_, fun spec hspec ↦ ?_, fun spec hspec ↦ ?_, fun name hname ↦ ?_⟩
    · simp [Difference.changes, addsAt, hstate]
    · simp only [Difference.changes, removesAt, hstate]
      exact get?_sharedLists regular valid views haction hspec
    · simp [Difference.changes, assignsAt, hstate]
    · obtain ⟨hwanted, -⟩ := hundeclared name hname
      exact ⟨rfl, get?_filterMap_of_none hwanted _, rfl⟩

end Ensure

end DirectoryReconcile
