import DirectoryReconcile.Proofs.Differences

/-!
# What a request does not name

Under `present` the attributes that a request does not name are left alone, and their values have no
influence on the changes. All of them are read nevertheless: an object that holds a value which
cannot be read fails the comparison, wherever the value stands.
-/

namespace DirectoryReconcile

namespace Difference

open Declaration Ensure

variable {declaration : Declaration} {object : RemoteObject} {desired : DesiredState}
  {action : Action} {withFlag : Bool} {name : String}

/-- Whether a requested attribute has this key. -/
def isRequestedKey (declaration : Declaration) (desired : DesiredState) (key : String) : Bool :=
  desired.attributes.keys.any fun name ↦
    (declaration.attribute? name).any fun spec ↦ spec.responseKey = key

/-- The fields of an object that belong to requested attributes. -/
def requestedPart (declaration : Declaration) (desired : DesiredState) (object : RemoteObject) :
    RemoteObject :=
  object.filter fun key _ ↦ isRequestedKey declaration desired key

/-- Whatever is read of an object apart from the requested attributes can be read. -/
def LegibleApart (declaration : Declaration) (desired : DesiredState) (action : Action)
    (object : RemoteObject) : Prop :=
  ∀ pair ∈ considered declaration object action false,
    isRequestedKey declaration desired pair.1.responseKey = false →
      (pair.1.normalize pair.2).isOk = true

instance : Decidable (LegibleApart declaration desired action object) := by
  unfold LegibleApart
  infer_instance

theorem isRequestedKey_of_get? {raw : AttrValue} {spec : AttributeSpec}
    (hraw : desired.attributes.get? name = some raw)
    (hspec : declaration.attribute? name = some spec) :
    isRequestedKey declaration desired spec.responseKey = true := by
  refine List.any_eq_true.2 ⟨name, ?_, by simp [hspec]⟩
  exact List.mem_map.2 ⟨(name, raw), desired.attributes.mem_entries_iff.2 hraw, rfl⟩

/-- Objects that agree at the keys of requested attributes have the same requested part. -/
theorem requestedPart_congr {first second : RemoteObject}
    (hagree : ∀ key, isRequestedKey declaration desired key = true →
      first.get? key = second.get? key) :
    requestedPart declaration desired first = requestedPart declaration desired second := by
  refine Dict.ext fun key ↦ ?_
  unfold requestedPart
  rw [Dict.get?_filter, Dict.get?_filter]
  cases hkey : isRequestedKey declaration desired key with
  | true => rw [hagree key hkey]
  | false => cases first.get? key <;> cases second.get? key <;> simp

/-! ## The view of the requested part -/

theorem considered_requestedPart :
    considered declaration (requestedPart declaration desired object) action withFlag =
      (considered declaration object action withFlag).filter fun pair ↦
        isRequestedKey declaration desired pair.1.responseKey := by
  unfold considered requestedPart Dict.filter
  rw [List.filter_filterMap, List.filterMap_filter]
  refine List.filterMap_congr fun entry _ ↦ ?_
  cases hattribute : declaration.attributeOfResponseKey? entry.1 with
  | none => simp
  | some spec =>
    have hkey : spec.responseKey = entry.1 := by simpa using List.find?_some hattribute
    by_cases hconsiders : considers declaration action withFlag spec = true
    · simp [hconsiders, Option.filter, hkey]
    · simp [hconsiders]

/-- A value that cannot be read makes a comparison fail in the same way whether the rest of the object
is there or not. -/
theorem canonicalCurrent_requestedPart
    (hlegible : LegibleApart declaration desired action object) {failure : Failure} :
    canonicalCurrent declaration (requestedPart declaration desired object) action false =
        .error failure ↔
      canonicalCurrent declaration object action false = .error failure := by
  have hread (values : Except Failure (List (String × AttrValue))) :
      (do return Dict.ofList (← values)) = .error failure ↔ values = .error failure := by
    cases values <;> simp [bind, Except.bind, pure, Except.pure]
  rw [canonicalCurrent_eq, canonicalCurrent_eq, considered_requestedPart, hread, hread]
  refine mapM_filter_eq_error_iff fun pair hpair hkey ↦ ?_
  obtain ⟨value, hvalue⟩ := isOk_iff.1 (hlegible pair hpair hkey)
  exact ⟨(pair.1.name, value), by simp only [hvalue]; rfl⟩

/-- A requested attribute has the same in the requested part as in the whole object. -/
theorem get?_canonicalCurrent_requestedPart (schema : ObjectSchema) {raw : AttrValue}
    {view part : Canonical}
    (hview : canonicalCurrent schema.toDeclaration object action withFlag = .ok view)
    (hpart : canonicalCurrent schema.toDeclaration
      (requestedPart schema.toDeclaration desired object) action withFlag = .ok part)
    (hraw : desired.attributes.get? name = some raw) : part.get? name = view.get? name := by
  refine Option.ext fun value ↦ ?_
  rw [get?_canonicalCurrent_iff schema.names_nodup hview,
    get?_canonicalCurrent_iff schema.names_nodup hpart]
  refine exists_congr fun spec ↦ exists_congr fun raw ↦ and_congr_right fun hkey ↦
    and_congr_right fun hname ↦ and_congr_right fun _ ↦ and_congr_left fun _ ↦ ?_
  have hspec : schema.attribute? name = some spec :=
    (named?_eq_some_iff schema.names_nodup).2 ⟨List.mem_of_find?_eq_some hkey, hname⟩
  unfold requestedPart
  rw [Dict.get?_filter, Option.filter_eq_some_iff]
  exact and_iff_left (isRequestedKey_of_get? hraw hspec)

/-! ## Changes under `present` -/

/-- Only what is requested of the current view counts. -/
theorem changes_present_congr {current current' wanted : Canonical}
    (h : ∀ name, wanted.get? name ≠ none → current.get? name = current'.get? name) :
    changes .present current wanted = changes .present current' wanted := by
  have hassigned : assigned current wanted = assigned current' wanted := by
    refine Dict.ext fun name ↦ ?_
    unfold assigned
    rw [Dict.get?_filterMap, Dict.get?_filterMap]
    cases hwanted : wanted.get? name with
    | none => rfl
    | some value =>
      unfold Canonical.scalarOf
      rw [h name (by simp [hwanted])]
  have hmissing : missing current wanted = missing current' wanted := by
    refine Dict.ext fun name ↦ ?_
    unfold missing
    rw [Dict.get?_filterMap, Dict.get?_filterMap]
    cases hwanted : wanted.get? name with
    | none => rfl
    | some value =>
      unfold Canonical.valuesOf
      rw [h name (by simp [hwanted])]
  rw [changes, changes, hassigned, hmissing]

theorem forcedFlag_of_present (hpresent : desired.state = .present) :
    forcedFlag declaration desired.state = none := by
  rw [hpresent]
  rfl

/-- Under `present`, of an object that can be read apart from the requested attributes only these
count. -/
theorem compute_requestedPart (schema : ObjectSchema) (hpresent : desired.state = .present)
    (hlegible : LegibleApart schema.toDeclaration desired action object) :
    compute schema.toDeclaration (requestedPart schema.toDeclaration desired object) desired action =
      compute schema.toDeclaration object desired action := by
  have hforced : forcedFlag schema.toDeclaration desired.state = none :=
    forcedFlag_of_present hpresent
  have hfail (failure : Failure) := @canonicalCurrent_requestedPart _ _ _ _ hlegible failure
  rw [compute_of_unforced hforced, compute_of_unforced hforced]
  rcases canonicalCurrent_cases schema.toDeclaration object action false with
    ⟨view, hview, -⟩ | ⟨failure, hfails, -⟩
  · rcases canonicalCurrent_cases schema.toDeclaration
      (requestedPart schema.toDeclaration desired object) action false with
      ⟨part, hpart, -⟩ | ⟨failure, hfails, -⟩
    · rw [hview, hpart]
      cases hdesired : canonicalDesired schema.toDeclaration desired action with
      | error failure => rfl
      | ok wanted =>
        refine congrArg Except.ok ?_
        rw [hpresent]
        refine changes_present_congr fun name hname ↦ ?_
        obtain ⟨value, hvalue⟩ := Option.ne_none_iff_exists'.1 hname
        obtain ⟨-, raw, -, -, hraw, -⟩ := (get?_canonicalDesired_iff hdesired).1 hvalue
        exact get?_canonicalCurrent_requestedPart schema hview hpart hraw
    · cases hview.symm.trans ((hfail failure).1 hfails)
  · rw [hfails, (hfail failure).2 hfails]

/-- Under `present`, changes name requested attributes only. -/
theorem omits_of_present (hpresent : desired.state = .present) {changes : ChangeSet}
    (hcompute : compute declaration object desired action = .ok changes)
    (hname : desired.attributes.get? name = none) : changes.Omits name := by
  rw [compute_of_unforced (forcedFlag_of_present hpresent), hpresent] at hcompute
  obtain ⟨current, -, hcompute⟩ := bind_eq_ok.1 hcompute
  obtain ⟨wanted, hdesired, hcompute⟩ := bind_eq_ok.1 hcompute
  obtain rfl := Except.ok.inj hcompute
  have hwanted : wanted.get? name = none :=
    Option.eq_none_iff_forall_ne_some.2 fun value hvalue ↦ by
      obtain ⟨-, raw, -, -, hraw, -⟩ := (get?_canonicalDesired_iff hdesired).1 hvalue
      simp [hname] at hraw
  constructor <;> simp [changes, assigned, missing, Dict.get?_filterMap, hwanted]

/-- An object with a value that cannot be read fails the comparison with what is wrong with such a
value. -/
theorem compute_of_illegible (hpresent : desired.state = .present)
    (hillegible : ¬LegibleApart declaration desired action object) :
    ∃ pair ∈ considered declaration object action false, ∃ fault,
      pair.1.canonical pair.2 = .error fault ∧ compute declaration object desired action =
        .error (.validation pair.1.name (.value fault)) := by
  rcases canonicalCurrent_cases declaration object action false with
    ⟨-, -, hall⟩ | ⟨failure, hfails, pair, hpair, hread⟩
  · exact absurd (fun pair hpair _ ↦ isOk_iff.2 (hall pair hpair)) hillegible
  · obtain ⟨fault, hfault, rfl⟩ := AttributeSpec.normalize_eq_error_iff.1 hread
    refine ⟨pair, hpair, fault, hfault, compute_of_unread ?_⟩
    rw [forcedFlag_of_present hpresent]
    exact hfails

/-- Under `present`, attributes that are not requested are left alone, and objects that agree on the
requested ones need the same changes, or fail alike, if what they have otherwise can be read. An
object that has anything else there fails with what is wrong with a value it has. -/
theorem compute_of_present (schema : ObjectSchema) {first second : RemoteObject}
    (hpresent : desired.state = .present)
    (hagree : ∀ key, isRequestedKey schema.toDeclaration desired key = true →
      first.get? key = second.get? key) :
    (LegibleApart schema.toDeclaration desired action first →
      LegibleApart schema.toDeclaration desired action second →
        compute schema.toDeclaration first desired action =
          compute schema.toDeclaration second desired action) ∧
    ∀ object ∈ [first, second],
      (∀ changes, compute schema.toDeclaration object desired action = .ok changes →
        ∀ name, desired.attributes.get? name = none → changes.Omits name) ∧
      (¬LegibleApart schema.toDeclaration desired action object →
        ∃ pair ∈ considered schema.toDeclaration object action false, ∃ fault,
          pair.1.canonical pair.2 = .error fault ∧
            compute schema.toDeclaration object desired action =
              .error (.validation pair.1.name (.value fault))) := by
  refine ⟨fun hfirst hsecond ↦ ?_, fun object _ ↦ ⟨fun changes hcompute name hname ↦ ?_,
    compute_of_illegible hpresent⟩⟩
  · calc compute schema.toDeclaration first desired action
      _ = compute schema.toDeclaration (requestedPart schema.toDeclaration desired first) desired
          action := (compute_requestedPart schema hpresent hfirst).symm
      _ = compute schema.toDeclaration (requestedPart schema.toDeclaration desired second) desired
          action := by rw [requestedPart_congr hagree]
      _ = compute schema.toDeclaration second desired action :=
        compute_requestedPart schema hpresent hsecond
  · exact omits_of_present hpresent hcompute hname

/-- A group that is to be described. -/
def describedGroup : DesiredState :=
  { DesiredState.ofState .present false with
    identity := .ofList [("cn", .scalar (.str "ops"))]
    attributes := .ofList [("description", .scalar (.str "Operations"))] }

def plainGroup : RemoteObject :=
  .ofList [("cn", .arr [.str "ops"]), ("description", .arr [.str "Operators"])]

/-- The same group with a number and members. -/
def staffedGroup : RemoteObject :=
  (plainGroup.insert "gidnumber" (.arr [.str "700"])).insert "member_user" (.arr [.str "alice"])

/-- The same group with a number that is none. -/
def misnumberedGroup : RemoteObject := plainGroup.insert "gidnumber" (.arr [.str "many"])

theorem get?_staffedGroup {key : String}
    (h : isRequestedKey ObjectSchema.group.toDeclaration describedGroup key = true) :
    plainGroup.get? key = staffedGroup.get? key := by
  have hnumber : "gidnumber" ≠ key := by
    rintro rfl
    exact absurd h (by decide +kernel)
  have hmember : "member_user" ≠ key := by
    rintro rfl
    exact absurd h (by decide +kernel)
  rw [staffedGroup, Dict.get?_insert, if_neg hmember, Dict.get?_insert, if_neg hnumber]

theorem compute_of_present_staffedGroup :
    describedGroup.state = .present ∧
      (∀ key, isRequestedKey ObjectSchema.group.toDeclaration describedGroup key = true →
        plainGroup.get? key = staffedGroup.get? key) ∧
      compute ObjectSchema.group.toDeclaration plainGroup describedGroup .modify =
        compute ObjectSchema.group.toDeclaration staffedGroup describedGroup .modify :=
  ⟨rfl, fun _ ↦ get?_staffedGroup,
    (compute_of_present ObjectSchema.group rfl fun _ ↦ get?_staffedGroup).1 (by decide +kernel)
      (by decide +kernel)⟩

/-- A value that is not requested may keep an object from being compared. -/
theorem compute_misnumberedGroup_ne :
    describedGroup.state = .present ∧
      (∀ key, isRequestedKey ObjectSchema.group.toDeclaration describedGroup key = true →
        plainGroup.get? key = misnumberedGroup.get? key) ∧
      compute ObjectSchema.group.toDeclaration plainGroup describedGroup .modify ≠
        compute ObjectSchema.group.toDeclaration misnumberedGroup describedGroup .modify := by
  refine ⟨rfl, fun key hkey ↦ ?_, by decide +kernel⟩
  have hne : "gidnumber" ≠ key := by
    rintro rfl
    exact absurd hkey (by decide +kernel)
  rw [misnumberedGroup, Dict.get?_insert, if_neg hne]

end Difference

end DirectoryReconcile
