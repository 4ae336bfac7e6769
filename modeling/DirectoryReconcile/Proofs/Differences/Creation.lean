import DirectoryReconcile.Proofs.Differences

/-!
# What an object is created with

An object that does not exist has nothing to compare with, so all that is requested is missing. Of
the requested values those are named in the changes whose attributes can be written on creation. The
others are neither named nor refused: the check for attributes that cannot be written looks at what
the object has otherwise, and here it has nothing.
-/

namespace DirectoryReconcile

/-- A value that says something: neither null nor an empty list. -/
def AttrValue.IsGiven : AttrValue → Prop
  | .scalar value => value ≠ .null
  | .list values => values ≠ []

/-- A change set assigns a scalar, or adds the values of a list. -/
def ChangeSet.Names (changes : ChangeSet) (name : String) : AttrValue → Prop
  | .scalar value => changes.scalars.get? name = some value
  | .list values => changes.listAdds.get? name = some (Ascending.ofList values)

theorem ChangeSet.Omits.not_names {changes : ChangeSet} {name : String} (h : changes.Omits name)
    (value : AttrValue) : ¬changes.Names name value := by
  cases value with
  | scalar v => simp [Names, h.scalars]
  | list values => simp [Names, h.listAdds]

namespace Difference

open Declaration Ensure

variable {declaration : Declaration} {desired : DesiredState} {identity : Identity}
  {current wanted : Canonical} {action : Action} {name : String} {value : AttrValue}

/-- Nothing is refused for an object that does not exist, whatever the action can write. -/
theorem checkApplicability_empty (declaration : Declaration) (desired : DesiredState)
    (action : Action) : checkApplicability declaration ∅ desired action = .ok () := by
  refine forM_eq_ok.2 fun (name, value) _ ↦ ?_
  simp only [checkWritable, Dict.get?_empty, ite_self]
  split <;> rfl

theorem canonicalCurrent_empty (declaration : Declaration) (action : Action) (withFlag : Bool) :
    canonicalCurrent declaration ∅ action withFlag = .ok ∅ := rfl

/-- A valid request can be compared with an object that does not exist, which has nothing but for
its flag. -/
theorem exists_views_empty (schema : ObjectSchema)
    (hvalidate : validate schema.toDeclaration desired = .ok identity) (action : Action) :
    ∃ current wanted, views schema.toDeclaration ∅ desired action = .ok (current, wanted) ∧
      Views schema.toDeclaration ∅ desired action current wanted ∧
        ∀ name, schema.isEnableAttribute name = false → current.get? name = none := by
  obtain ⟨requested, hrequested⟩ := canonicalDesired_isOk hvalidate action
  obtain ⟨⟨current, wanted⟩, hviews⟩ : ∃ pair,
      views schema.toDeclaration ∅ desired action = .ok pair :=
    ⟨_, bind_eq_ok.2 ⟨∅, canonicalCurrent_empty _ _ _, bind_eq_ok.2 ⟨requested, hrequested, rfl⟩⟩⟩
  have hspec := views_spec schema.names_nodup hviews
  refine ⟨current, wanted, hviews, hspec, fun name hflag ↦
    Option.eq_none_iff_forall_ne_some.2 fun value hvalue ↦ ?_⟩
  obtain ⟨_, _, -, -, -, hget, -⟩ := (hspec.has name value hflag).1 hvalue
  simp at hget

/-- What is requested and missing is named in the changes. -/
theorem names_changes {state : TargetState} (hstate : state ≠ .absent)
    (hkinds : SameKinds current wanted) (hcurrent : current.get? name = none)
    (hwanted : wanted.get? name = some value) (hgiven : value.IsGiven) :
    (changes state current wanted).Names name value := by
  cases value with
  | scalar v =>
    have hnull : current.scalarOf name ≠ v := by
      rw [Canonical.scalarOf, hcurrent]
      exact Ne.symm hgiven
    exact ((changes_isDifference state hkinds).scalars name v).2 ⟨hstate, .inl ⟨hwanted, hnull⟩⟩
  | list values =>
    have hadds : (changes state current wanted).listAdds = missing current wanted := by
      cases state with
      | absent => exact absurd rfl hstate
      | present | exact | enabled | disabled => rfl
    have hnone : current.valuesOf name = [] := by
      rw [Canonical.valuesOf, hcurrent]
      rfl
    obtain ⟨v, hv⟩ := List.exists_mem_of_ne_nil _ hgiven
    have hne : Ascending.ofList values ≠ [] := List.ne_nil_of_mem (Ascending.mem_ofList.2 hv)
    unfold ChangeSet.Names
    rw [hadds, missing_eq, selectedLists, Dict.get?_filterMap, hwanted]
    refine selected_eq_some_iff.2 ⟨hne, ?_⟩
    simp [hnone]

/-- A valid request can be compared with an object that does not exist. Its changes name a value that
says something exactly if its attribute can be written on creation, and have nothing at all for the
attributes that cannot; none of these is refused. -/
theorem creation_names_iff (schema : ObjectSchema)
    (hvalidate : validate schema.toDeclaration desired = .ok identity)
    (hstate : desired.state ≠ .absent) :
    checkApplicability schema.toDeclaration ∅ desired .add = .ok () ∧
      ∃ changes, compute schema.toDeclaration ∅ desired .add = .ok changes ∧
        ∀ name raw, desired.attributes.get? name = some raw → ∃ spec value,
          schema.attribute? name = some spec ∧ spec.normalize raw.toJson = .ok value ∧
            (value.IsGiven → (changes.Names name value ↔ spec.appliesTo .add = true)) ∧
            (spec.appliesTo .add = false → changes.Omits name) := by
  refine ⟨checkApplicability_empty _ _ _, ?_⟩
  obtain ⟨current, wanted, hviews, hspec, hempty⟩ := exists_views_empty schema hvalidate .add
  refine ⟨changes desired.state current wanted, by rw [compute, hviews]; rfl,
    fun name raw hraw ↦ ?_⟩
  obtain ⟨spec, value, hattribute, hidentity, hflag, hvalue⟩ := checkRequested_eq_ok_iff.1
    ((parts_of_validate hvalidate).2.1 name raw hraw)
  have hcurrent := hempty name hflag
  have hname : spec.name = name := by simpa using List.find?_some hattribute
  have homits (hunwritten : spec.appliesTo .add = false) :
      (changes desired.state current wanted).Omits name := by
    refine omits_changes _ hcurrent (Option.eq_none_iff_forall_ne_some.2 fun other hother ↦ ?_)
    obtain ⟨spec', _, hattribute', hcompared, -⟩ := (hspec.wants name other hflag).1 hother
    cases hattribute.symm.trans hattribute'
    exact Bool.false_ne_true (hunwritten.symm.trans hcompared.written)
  refine ⟨spec, value, hattribute, hvalue, fun hgiven ↦ ⟨fun hnames ↦ ?_, fun hwritten ↦ ?_⟩, homits⟩
  · by_contra hunwritten
    exact (homits (by simpa using hunwritten)).not_names value hnames
  · have hcompared : Compared schema.toDeclaration .add false spec :=
      ⟨hwritten, hidentity, fun henable ↦ by simp [hname, hflag] at henable⟩
    exact names_changes hstate hspec.sameKinds hcurrent
      ((hspec.wants name value hflag).2 ⟨spec, raw, hattribute, hcompared, hraw, hvalue⟩) hgiven

def tokenLabels : AttributeSpec := .list "label"

/-- The standing of a token, which only a change can write. -/
def tokenStanding : AttributeSpec :=
  { AttributeSpec.scalar "standing" with actions := .ofList [.modify] }

/-- Numbered tokens. -/
def numberedToken : ObjectSchema where
  toDeclaration := { Declaration.ofName "token" with
    attributes := [AttributeSpec.identityKey "number", tokenLabels, tokenStanding] }
  accepted := by decide +kernel

def labelledToken : DesiredState :=
  { DesiredState.ofState .present false with
    identity := .ofList [("number", .scalar (.str "7"))]
    attributes := .ofList [("label", .list [.str "b", .str "a", .str "b"]),
      ("standing", .scalar (.str "active"))] }

/-- The labels are added and the standing is left out. -/
theorem creation_names_iff_labelledToken :
    validate numberedToken.toDeclaration labelledToken =
        .ok (.ofList [("number", .scalar (.str "7"))]) ∧
      labelledToken.state ≠ .absent ∧
      checkApplicability numberedToken.toDeclaration ∅ labelledToken .add = .ok () ∧
      ∃ changes, compute numberedToken.toDeclaration ∅ labelledToken .add = .ok changes ∧
        changes.Names "label" (.list [.str "b", .str "a", .str "b"]) ∧ changes.Omits "standing" := by
  have hvalidate : validate numberedToken.toDeclaration labelledToken =
      .ok (.ofList [("number", .scalar (.str "7"))]) := by decide +kernel
  have hstate : labelledToken.state ≠ .absent := by decide
  obtain ⟨happlicable, changes, hchanges, hnames⟩ :=
    creation_names_iff numberedToken hvalidate hstate
  refine ⟨hvalidate, hstate, happlicable, changes, hchanges, ?_, ?_⟩
  · obtain ⟨spec, value, hspec, hvalue, hnamed, -⟩ :=
      hnames "label" (.list [.str "b", .str "a", .str "b"]) (by decide +kernel)
    obtain rfl : tokenLabels = spec := Option.some.inj (Eq.trans rfl hspec)
    obtain rfl : AttrValue.list [.str "b", .str "a", .str "b"] = value :=
      Except.ok.inj (Eq.trans (by decide +kernel) hvalue)
    exact (hnamed (List.cons_ne_nil _ _)).2 rfl
  · obtain ⟨spec, value, hspec, -, -, homits⟩ :=
      hnames "standing" (.scalar (.str "active")) (by decide +kernel)
    obtain rfl : tokenStanding = spec := Option.some.inj (Eq.trans rfl hspec)
    exact homits rfl

end Difference

end DirectoryReconcile
