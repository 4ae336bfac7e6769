import DirectoryReconcile.Proofs.Differences

/-!
# Applied changes

An object to which the changes were applied once has nothing left to change. Applying means to
assign the scalars and to add and then remove the values of lists; a missing value, a null and an
empty list are alike, and so are lists of the same values.
-/

namespace DirectoryReconcile

namespace ChangeSet

variable (changes : ChangeSet) (name : String)

/-- The values that are added to a list. -/
def added : List Scalar := (changes.listAdds.get? name).getD []

/-- The values that are removed from a list. -/
def removed : List Scalar := (changes.listRemoves.get? name).getD []

/-- The scalars after the changes are those assigned, where null clears, and the old ones elsewhere;
the lists have their old values and the added ones, less those removed. -/
structure Applied (before after : Canonical) : Prop where
  scalarOf_eq : ∀ name,
    after.scalarOf name = (changes.scalars.get? name).getD (before.scalarOf name)
  mem_listOf_iff : ∀ name v, v ∈ after.listOf name ↔
    (v ∈ before.listOf name ∨ v ∈ changes.added name) ∧ v ∉ changes.removed name

variable {changes}

/-- Only the names and the values that occur somewhere have to be looked at. -/
theorem applied_iff {before after : Canonical} : changes.Applied before after ↔
    ∀ name ∈ after.keys ++ before.keys ++ changes.scalars.keys ++ changes.listAdds.keys,
      after.scalarOf name = (changes.scalars.get? name).getD (before.scalarOf name) ∧
        ∀ v ∈ after.listOf name ++ before.listOf name ++ changes.added name,
          v ∈ after.listOf name ↔
            (v ∈ before.listOf name ∨ v ∈ changes.added name) ∧ v ∉ changes.removed name := by
  refine ⟨fun h name _ ↦ ⟨h.scalarOf_eq name, fun v _ ↦ h.mem_listOf_iff name v⟩, fun h ↦ ?_⟩
  have hnone {α : Type} {dict : Dict α} {name : String} (hname : name ∉ dict.keys) :
      dict.get? name = none :=
    Option.not_isSome_iff_eq_none.1 fun hsome ↦ hname ((dict.contains_iff name).1 hsome)
  have hkey (name : String) :
      name ∈ after.keys ++ before.keys ++ changes.scalars.keys ++ changes.listAdds.keys ∨
        after.get? name = none ∧ before.get? name = none ∧ changes.scalars.get? name = none ∧
          changes.listAdds.get? name = none := by
    refine or_iff_not_imp_left.2 fun hname ↦ ?_
    simp only [List.mem_append, not_or] at hname
    exact ⟨hnone hname.1.1.1, hnone hname.1.1.2, hnone hname.1.2, hnone hname.2⟩
  constructor
  · intro name
    rcases hkey name with hname | ⟨hafter, hbefore, hscalars, -⟩
    · exact (h name hname).1
    · simp [Canonical.scalarOf, hafter, hbefore, hscalars]
  · intro name v
    rcases hkey name with hname | ⟨hafter, hbefore, -, hadds⟩
    · by_cases hv : v ∈ after.listOf name ++ before.listOf name ++ changes.added name
      · exact (h name hname).2 v hv
      · simp only [List.mem_append, not_or] at hv
        simp [hv]
    · simp [Canonical.listOf, added, hafter, hbefore, hadds]

instance (before after : Canonical) : Decidable (changes.Applied before after) :=
  decidable_of_iff _ applied_iff.symm

end ChangeSet

namespace Difference

open Declaration Ensure

variable {state : TargetState} {current wanted after : Canonical} {changes : ChangeSet}
  {name : String}

/-! ## Between two views -/

/-- The changes to what is requested, applied, lead to what is requested. -/
theorem IsDifference.meets_of_applied (found : IsDifference state current wanted changes)
    (applied : changes.Applied current after) : Meets state after wanted where
  lists hstate name v hwanted := by
    refine (applied.mem_listOf_iff name v).2 ⟨?_, fun hremoved ↦ ?_⟩
    · by_cases hcurrent : v ∈ current.listOf name
      · exact .inl hcurrent
      · exact .inr ((found.adds name v).2 ⟨hstate, hwanted, hcurrent⟩)
    · rcases (found.removes name v).1 hremoved with ⟨-, -, hunwanted⟩ | ⟨habsent, -⟩
      · exact hunwanted hwanted
      · exact hstate habsent
  scalars hstate name v hwanted := by
    rw [applied.scalarOf_eq]
    by_cases hsame : current.scalarOf name = v
    · cases hassigned : changes.scalars.get? name with
      | none => exact hsame
      | some w =>
        obtain ⟨-, ⟨hw, -⟩ | ⟨-, -, hunwanted, -⟩⟩ := (found.scalars name w).1 hassigned
        · cases hw.symm.trans hwanted
          rfl
        · simp [hunwanted] at hwanted
    · rw [(found.scalars name v).2 ⟨hstate, .inl ⟨hwanted, hsame⟩⟩]
      rfl
  surplus hexact name v hafter := by
    obtain ⟨hcurrent | hadded, hkept⟩ := (applied.mem_listOf_iff name v).1 hafter
    · by_contra hunwanted
      exact hkept ((found.removes name v).2 (.inl ⟨hexact, hcurrent, hunwanted⟩))
    · exact ((found.adds name v).1 hadded).2.1
  cleared hexact name hunwanted := by
    rw [applied.scalarOf_eq]
    by_cases hnull : current.scalarOf name = .null
    · cases hassigned : changes.scalars.get? name with
      | none => exact hnull
      | some w =>
        obtain ⟨-, ⟨hw, -⟩ | ⟨-, rfl, -⟩⟩ := (found.scalars name w).1 hassigned
        · simp [hunwanted] at hw
        · rfl
    · rw [(found.scalars name .null).2 ⟨by simp [hexact], .inr ⟨hexact, rfl, hunwanted, hnull⟩⟩]
      rfl
  gone habsent name v hafter := by
    obtain ⟨hcurrent | hadded, hkept⟩ := (applied.mem_listOf_iff name v).1 hafter
    · exact fun hwanted ↦ hkept ((found.removes name v).2 (.inr ⟨habsent, hcurrent, hwanted⟩))
    · exact absurd habsent ((found.adds name v).1 hadded).1

/-! ## The views that are compared -/

variable {declaration : Declaration} {object : RemoteObject} {desired : DesiredState}
  {action : Action}

/-- The view of an object that is compared: it shows the forced flag even where the object does
not. -/
def shownFlag (declaration : Declaration) (state : TargetState) (found : Canonical) : Canonical :=
  match forcedFlag declaration state with
  | some (_, flag) => withStoredFlag flag found
  | none => found

/-- The view of a request that is compared: it asks for the forced flag. -/
def askedFlag (declaration : Declaration) (state : TargetState) (requested : Canonical) :
    Canonical :=
  match forcedFlag declaration state with
  | some (enabled, flag) =>
    requested.insert flag.attr (.scalar (.bool (flag.storedValue enabled)))
  | none => requested

theorem views_eq_ok_iff {shown wanted : Canonical} :
    views declaration object desired action = .ok (shown, wanted) ↔ ∃ found requested,
      canonicalCurrent declaration object action (forcedFlag declaration desired.state).isSome =
          .ok found ∧
        canonicalDesired declaration desired action = .ok requested ∧
          shownFlag declaration desired.state found = shown ∧
            askedFlag declaration desired.state requested = wanted := by
  have hviews : views declaration object desired action = (do
      let found ← canonicalCurrent declaration object action
        (forcedFlag declaration desired.state).isSome
      let requested ← canonicalDesired declaration desired action
      return (shownFlag declaration desired.state found,
        askedFlag declaration desired.state requested)) := by
    unfold views shownFlag askedFlag
    cases forcedFlag declaration desired.state <;> rfl
  rw [hviews]
  simp only [bind_eq_ok]
  simp only [pure, Except.pure, Except.ok.injEq, Prod.mk.injEq, exists_and_left]

theorem listOf_withStoredFlag {flag : EnableSpec} {view : Canonical} :
    (withStoredFlag flag view).listOf name = view.listOf name := by
  have hinsert (hempty : view.listOf flag.attr = []) (stored : Scalar) :
      Canonical.listOf (view.insert flag.attr (.scalar stored)) name = view.listOf name := by
    by_cases hname : flag.attr = name
    · rw [← hname, hempty, Canonical.listOf, Dict.get?_insert_self]
    · rw [Canonical.listOf, Dict.get?_insert, if_neg hname]
      rfl
  unfold withStoredFlag
  split
  next h => exact hinsert (by rw [Canonical.listOf, h]) _
  next h => exact hinsert (by rw [Canonical.listOf, h]) _
  next => rfl

/-- Where the flag is a scalar, a missing one is shown as that of an enabled object. -/
theorem scalarOf_withStoredFlag {flag : EnableSpec} {view : Canonical}
    (hscalar : ∀ values, view.get? flag.attr ≠ some (.list values)) :
    (withStoredFlag flag view).scalarOf name =
      if flag.attr = name ∧ view.scalarOf name = .null then .bool (flag.storedValue true)
      else view.scalarOf name := by
  by_cases hname : flag.attr = name
  · subst hname
    unfold withStoredFlag
    split
    next h => simp [Canonical.scalarOf, h]
    next h => simp [Canonical.scalarOf, h]
    next stored hnull hstored =>
      cases stored with
      | list values => exact absurd hstored (hscalar values)
      | scalar v =>
        have hne : view.scalarOf flag.attr ≠ .null := by
          rw [Canonical.scalarOf, hstored]
          exact fun heq ↦ hnull (congrArg AttrValue.scalar heq)
        rw [if_neg fun h ↦ hne h.2]
  · rw [if_neg fun h ↦ hname h.1, Canonical.scalarOf, get?_withStoredFlag hname]
    rfl

/-- Changes that do not clear the flag are applied to what is shown of it. -/
theorem applied_withStoredFlag {flag : EnableSpec} {found updated : Canonical}
    (applied : changes.Applied found updated)
    (hfound : ∀ values, found.get? flag.attr ≠ some (.list values))
    (hupdated : ∀ values, updated.get? flag.attr ≠ some (.list values))
    (hassigned : changes.scalars.get? flag.attr ≠ some .null) :
    changes.Applied (withStoredFlag flag found) (withStoredFlag flag updated) where
  scalarOf_eq name := by
    rw [scalarOf_withStoredFlag hfound, scalarOf_withStoredFlag hupdated, applied.scalarOf_eq]
    by_cases hname : flag.attr = name
    · subst hname
      cases h : changes.scalars.get? flag.attr with
      | none => rfl
      | some v =>
        have hne : v ≠ .null := fun heq ↦ hassigned (heq ▸ h)
        simp [hne]
    · simp [hname]
  mem_listOf_iff name v := by
    rw [listOf_withStoredFlag, listOf_withStoredFlag]
    exact applied.mem_listOf_iff name v

/-- No view of an object has a list for the flag. -/
theorem get?_flag_ne_list (schema : ObjectSchema) {flag : EnableSpec}
    (henable : schema.enable = some flag) {withFlag : Bool} {view : Canonical}
    (h : canonicalCurrent schema.toDeclaration object action withFlag = .ok view)
    (values : List Scalar) : view.get? flag.attr ≠ some (.list values) := by
  intro hvalues
  obtain ⟨spec, hspec, -, -, raw, -, hread⟩ :=
    ((get?_canonicalCurrent_iff schema.names_nodup h).1 hvalues).exists_attribute
  obtain ⟨own, hown, -, hscalar, -⟩ := schema.exists_flag henable
  cases hspec.symm.trans hown
  rw [AttributeSpec.isList_of_canonical hread] at hscalar
  exact Bool.false_ne_true hscalar.symm

/-! ## Whole runs of the comparison -/

/-- Once the changes that an object needs are applied to it, it needs no changes. -/
theorem compute_of_applied (schema : ObjectSchema) {updated : RemoteObject}
    {current after : Canonical}
    (hcompute : compute schema.toDeclaration object desired action = .ok changes)
    (hcurrent : canonicalCurrent schema.toDeclaration object action
      (forcedFlag schema.toDeclaration desired.state).isSome = .ok current)
    (hafter : canonicalCurrent schema.toDeclaration updated action
      (forcedFlag schema.toDeclaration desired.state).isSome = .ok after)
    (happlied : changes.Applied current after) :
    compute schema.toDeclaration updated desired action = .ok ∅ := by
  obtain ⟨⟨shown, wanted⟩, hviews, hchanges⟩ := bind_eq_ok.1 hcompute
  obtain rfl := Except.ok.inj hchanges
  have hfound := changes_isDifference desired.state
    (views_spec schema.names_nodup hviews).sameKinds
  obtain ⟨found, requested, hread, hrequested, rfl, rfl⟩ := views_eq_ok_iff.1 hviews
  cases hcurrent.symm.trans hread
  have hupdated := views_eq_ok_iff.2 ⟨after, requested, hafter, hrequested, rfl, rfl⟩
  have hsecond := changes_isDifference desired.state
    (views_spec schema.names_nodup hupdated).sameKinds
  rw [compute, hupdated]
  refine congrArg Except.ok (hsecond.eq_empty_iff.2 (hfound.meets_of_applied ?_))
  unfold shownFlag at hfound happlied ⊢
  cases hforced : forcedFlag schema.toDeclaration desired.state with
  | none => simpa only [hforced] using happlied
  | some forced =>
    obtain ⟨enabled, flag⟩ := forced
    obtain ⟨hstate, henable⟩ := forcedFlag_eq_some_iff.1 hforced
    have hwanted : (askedFlag schema.toDeclaration desired.state requested).get? flag.attr =
        some (.scalar (.bool (flag.storedValue enabled))) := by
      unfold askedFlag
      rw [hforced]
      exact Dict.get?_insert_self _ _ _
    simp only [hforced] at hfound happlied ⊢
    refine applied_withStoredFlag happlied (get?_flag_ne_list schema henable hcurrent)
      (get?_flag_ne_list schema henable hafter) fun hcleared ↦ ?_
    obtain ⟨-, ⟨hnull, -⟩ | ⟨-, -, hnone, -⟩⟩ := (hfound.scalars flag.attr .null).1 hcleared
    · simp [hwanted] at hnull
    · simp [hwanted] at hnone

/-- The user after the changes, as the service reports it. -/
def updatedUser : RemoteObject := .ofList [("uid", .arr [.str "alice"]), ("sn", .str "Ashe"),
  ("givenname", .arr [.str "Alice"]), ("title", .arr []),
  ("mail", .arr [.str "c@example.org", .str "b@example.org", .str "c@example.org"])]

/-- What the user has before the changes. -/
def foundView : Canonical := .ofList [("sn", .scalar (.str "Ashe")),
  ("title", .scalar (.str "Director")), ("mail", .list [.str "a@example.org", .str "b@example.org"])]

/-- What the user has after them. -/
def updatedView : Canonical := .ofList [("sn", .scalar (.str "Ashe")),
  ("givenname", .scalar (.str "Alice")), ("title", .scalar .null),
  ("mail", .list [.str "c@example.org", .str "b@example.org", .str "c@example.org"])]

theorem compute_of_applied_exactUser :
    compute ObjectSchema.user.toDeclaration foundUser exactUser .modify = .ok exactChanges ∧
      exactChanges.Applied foundView updatedView ∧
        compute ObjectSchema.user.toDeclaration updatedUser exactUser .modify = .ok ∅ :=
  have hcompute : compute ObjectSchema.user.toDeclaration foundUser exactUser .modify =
      .ok exactChanges := by decide +kernel
  have happlied : exactChanges.Applied foundView updatedView := by decide +kernel
  ⟨hcompute, happlied,
    compute_of_applied ObjectSchema.user hcompute (by decide +kernel) (by decide +kernel) happlied⟩

end Difference

end DirectoryReconcile
