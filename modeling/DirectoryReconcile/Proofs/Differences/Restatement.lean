import DirectoryReconcile.Proofs.Differences

/-!
# Requests for what is there

A canonical view is a request of its own: what an attribute was read as is read as itself. A request
for what an object has can always be written, and there is nothing to change.
-/

namespace DirectoryReconcile

namespace Difference

open Declaration Ensure

variable {state : TargetState} {view : Canonical} {object : RemoteObject} {desired : DesiredState}
  {action : Action} {name : String} {value : AttrValue}

/-- An object has what it has, and nothing else. -/
theorem meets_self (hstate : state ≠ .absent) (view : Canonical) : Meets state view view where
  lists _ _ _ hv := hv
  scalars _ name v hv := by rw [Canonical.scalarOf, hv]
  surplus _ _ _ hv := hv
  cleared _ name hnone := by rw [Canonical.scalarOf, hnone]
  gone habsent := absurd habsent hstate

theorem changes_self (hstate : state ≠ .absent) (view : Canonical) : changes state view view = ∅ := by
  have hkinds : SameKinds view view := by
    intro name value value' hvalue hvalue'
    cases hvalue.symm.trans hvalue'
    rfl
  exact (changes_isDifference state hkinds).eq_empty_iff.2 (meets_self hstate view)

/-! ## Views as requests -/

section

variable (schema : ObjectSchema)
  (hview : canonicalCurrent schema.toDeclaration object action false = .ok view)
  (hattributes : desired.attributes = view)

include hview hattributes

/-- A view is its own view as a request. -/
theorem canonicalDesired_of_view
    (hknown : ∀ spec ∈ schema.attributes, ∀ normalizer ∈ spec.normalizer,
      normalizer ∈ ValueNormalizer.known) :
    canonicalDesired schema.toDeclaration desired action = .ok view := by
  have hread : ∀ entry ∈ desired.attributes.entries,
      canonicalRequested schema.toDeclaration action entry.1 entry.2 = .ok (some entry) := by
    rintro ⟨name, value⟩ hentry
    rw [hattributes] at hentry
    obtain ⟨spec, hspec, -, hcompared, raw, -, hraw⟩ :=
      ((get?_canonicalCurrent_iff schema.names_nodup hview).1
        (view.mem_entries_iff.1 hentry)).exists_attribute
    have hmem : spec ∈ schema.attributes := List.mem_of_find?_eq_some hspec
    exact canonicalRequested_eq_some.2 ⟨rfl, spec, hspec, hcompared,
      AttributeSpec.normalize_eq_ok_iff.2 (AttributeSpec.canonical_of_canonical (hknown spec hmem) hraw)⟩
  have hvalues := mapM_of_forall hread
  unfold canonicalDesired
  simp only [hvalues, bind, Except.bind, pure, Except.pure, List.filterMap_map]
  rw [Function.id_comp, List.filterMap_some, hattributes, Dict.ofList_entries]

/-- A request for what an object has is not refused: the action can write all of it. -/
theorem checkApplicability_of_view :
    checkApplicability schema.toDeclaration object desired action = .ok () := by
  refine forM_eq_ok.2 ?_
  rintro ⟨name, value⟩ hentry
  rw [hattributes] at hentry
  obtain ⟨spec, hspec, -, hcompared, -⟩ :=
    ((get?_canonicalCurrent_iff schema.names_nodup hview).1
      (view.mem_entries_iff.1 hentry)).exists_attribute
  simp [checkWritable, hspec, hcompared.written]

/-- Who requests what an object has already is not refused and changes nothing. -/
theorem compute_of_view
    (hknown : ∀ spec ∈ schema.attributes, ∀ normalizer ∈ spec.normalizer,
      normalizer ∈ ValueNormalizer.known)
    (hstate : desired.state = .present ∨ desired.state = .exact) :
    checkApplicability schema.toDeclaration object desired action = .ok () ∧
      compute schema.toDeclaration object desired action = .ok ∅ := by
  refine ⟨checkApplicability_of_view schema hview hattributes, ?_⟩
  have hunforced : forcedFlag schema.toDeclaration desired.state = none := by
    rcases hstate with h | h <;> rw [h] <;> rfl
  rw [compute_of_unforced hunforced, hview,
    canonicalDesired_of_view schema hview hattributes hknown]
  exact congrArg Except.ok (changes_self (by rcases hstate with h | h <;> simp [h]) view)

end

/-- A user with wrapped, single, textual and empty values. -/
def reportedUser : RemoteObject := .ofList [("uid", .arr [.str "alice"]), ("sn", .str "Ashe"),
  ("title", .null), ("gidnumber", .arr [.str " 1001 "]), ("mail", .str "a@example.org"),
  ("nsaccountlock", .bool true), ("pager", .arr []), ("objectclass", .arr [.str "person"]),
  ("usercertificate", .arr [.obj [("__base64__", .str "MIIC")], .null]),
  ("krbprincipalname", .arr [.str "ashe@EXAMPLE.ORG", .str "a.ashe", .int 7])]

/-- What the user has. -/
def reportedView : Canonical := .ofList [("sn", .scalar (.str "Ashe")), ("title", .scalar .null),
  ("gidnumber", .scalar (.int 1001)), ("mail", .list [.str "a@example.org"]), ("pager", .list []),
  ("usercertificate", .list [.str "MIIC"]),
  ("krbprincipalname", .list [.str "ashe", .str "a.ashe", .str "7"])]

/-- A request for just that. -/
def restatedUser : DesiredState :=
  { DesiredState.ofState .exact false with
    identity := .ofList [("uid", .scalar (.str "alice"))]
    attributes := reportedView }

theorem compute_of_view_reportedUser :
    canonicalCurrent ObjectSchema.user.toDeclaration reportedUser .modify false =
        .ok reportedView ∧
      checkApplicability ObjectSchema.user.toDeclaration reportedUser restatedUser .modify =
          .ok () ∧
        compute ObjectSchema.user.toDeclaration reportedUser restatedUser .modify = .ok ∅ :=
  have hview : canonicalCurrent ObjectSchema.user.toDeclaration reportedUser .modify false =
      .ok reportedView := by decide +kernel
  ⟨hview, compute_of_view ObjectSchema.user hview rfl
    (fun spec hspec ↦ (ObjectSchema.isPaired_builtins ObjectSchema.user
      (by simp [ObjectSchema.builtins]) spec hspec).known) (.inr rfl)⟩

end Difference

end DirectoryReconcile
