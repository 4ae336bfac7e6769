import DirectoryReconcile.Proofs.Directory.Sound
import DirectoryReconcile.Proofs.Ensure.Changes
import DirectoryReconcile.Proofs.Ensure.Phases

/-!
# The calls of a run

Every call that a run posts after the search is one operation on the object that the request names,
and gives its attributes only requested values.
-/

namespace DirectoryReconcile

namespace Ensure

open Declaration Operation

variable {declaration : Declaration} {desired : DesiredState} {identity : Identity}
  {texts : List String} {allowed : String → Scalar → Prop} {changes : ChangeSet} {call : RemoteCall}
  {action : Action}

/-- A call is one operation, other than the search, on the object with this identity. It gives
lists only allowed values. -/
def Concerns (declaration : Declaration) (texts : List String) (allowed : String → Scalar → Prop)
    (call : RemoteCall) : Prop :=
  ∃ operation, ofMethod? declaration call.method call.arguments = some operation ∧
    operation ≠ .find ∧ identityOf declaration call.positional = .ok texts ∧
      Writes declaration allowed call.arguments operation

variable (regular : declaration.Regular)

/-! ## The call that creates the object or assigns its scalars -/

theorem mem_encodedOptions {values : Dict AttrValue} {option : String × Json} :
    option ∈ encodedOptions declaration values ↔ ∃ value spec,
      values.get? option.1 = some value ∧ declaration.attribute? option.1 = some spec ∧
        option.2 = spec.encode value := by
  unfold encodedOptions
  rw [List.mem_filterMap]
  constructor
  · rintro ⟨⟨name, value⟩, hentry, h⟩
    obtain ⟨spec, hspec, rfl⟩ := Option.map_eq_some_iff.1 h
    exact ⟨value, spec, values.mem_entries_iff.1 hentry, hspec, rfl⟩
  · rintro ⟨value, spec, hget, hspec, heq⟩
    refine ⟨(option.1, value), values.mem_entries_iff.2 hget, ?_⟩
    simp [hspec, ← heq]

/-- The options of the first call. -/
def primaryItem (declaration : Declaration) (action : Action) (changes : ChangeSet) : Dict Json :=
  .ofList (encodedOptions declaration (changes.scalars.mapValues .scalar) ++
    encodedOptions declaration ((inlineAdds declaration action changes).mapValues .list) ++
      [("all", .bool true)])

theorem get?_inlineAdds {name : String} {values : List Scalar}
    (h : (inlineAdds declaration action changes).get? name = some values) :
    changes.listAdds.get? name = some values ∧ creates declaration action = true ∧
      isUnrouted declaration name = true := by
  unfold inlineAdds at h
  split at h
  next hcreates =>
    rw [Dict.get?_filter, Option.filter_eq_some_iff] at h
    exact ⟨h.1, hcreates, h.2⟩
  next => simp at h

include regular in
theorem mem_encodedOptions_of_mem {spec : AttributeSpec} (hspec : spec ∈ declaration.attributes)
    {values : Dict AttrValue} {value : Json} :
    (spec.name, value) ∈ encodedOptions declaration values ↔
      ∃ v, values.get? spec.name = some v ∧ value = spec.encode v := by
  simp [mem_encodedOptions, regular.attribute?_of_mem hspec]

include regular in
/-- A list that is set at once has no scalar among the changes. -/
theorem scalars_eq_none_of_inlineAdds (hcomes : Comes declaration desired changes) {name : String}
    {values : List Scalar}
    (hvalues : (inlineAdds declaration action changes).get? name = some values) :
    changes.scalars.get? name = none := by
  cases hv : changes.scalars.get? name with
  | none => rfl
  | some v =>
    obtain ⟨spec, hspec, hname, -, hscalar, -⟩ := hcomes.scalars _ v hv
    obtain ⟨other, scalars, hname', hlist, hasks, -⟩ :=
      hcomes.adds _ values (get?_inlineAdds hvalues).1
    obtain rfl := regular.eq_of_name_eq hspec hasks.mem (hname.trans hname'.symm)
    simp [hscalar] at hlist

include regular in
/-- An attribute is set to its scalar or to its list, if it has one among the changes. -/
theorem get?_primaryItem (hcomes : Comes declaration desired changes) {spec : AttributeSpec}
    (hspec : spec ∈ declaration.attributes) :
    (primaryItem declaration action changes).get? spec.name =
      ((changes.scalars.get? spec.name).map fun v ↦ spec.encode (.scalar v)).or
        (((inlineAdds declaration action changes).get? spec.name).map fun values ↦
          spec.encode (.list values)) := by
  have hall : spec.name ≠ "all" := by
    intro hname
    have hfree := regular.names_free spec hspec
    simp [hname, controlKeys] at hfree
  have hmem (value : Json) : (spec.name, value) ∈
      encodedOptions declaration (changes.scalars.mapValues .scalar) ++
        encodedOptions declaration ((inlineAdds declaration action changes).mapValues .list) ++
          [("all", Json.bool true)] ↔
      (∃ v, changes.scalars.get? spec.name = some v ∧ value = spec.encode (.scalar v)) ∨
        ∃ values, (inlineAdds declaration action changes).get? spec.name = some values ∧
          value = spec.encode (.list values) := by
    simp [mem_encodedOptions_of_mem regular hspec, Dict.get?_mapValues, hall]
  unfold primaryItem
  rw [Dict.ofList]
  rcases Dict.get?_insertMany_cases ∅ (encodedOptions declaration (changes.scalars.mapValues .scalar) ++
      encodedOptions declaration ((inlineAdds declaration action changes).mapValues .list) ++
        [("all", Json.bool true)]) spec.name with ⟨value, hvalue, hget⟩ | ⟨hnot, hget⟩
  · rw [hget]
    rcases (hmem value).1 hvalue with ⟨v, hv, rfl⟩ | ⟨values, hvalues, rfl⟩
    · rw [hv]
      rfl
    · rw [scalars_eq_none_of_inlineAdds regular hcomes hvalues, hvalues]
      rfl
  · rw [hget, Dict.get?_empty]
    have habsent (value : Json) := mt (hmem value).2 fun h ↦ hnot (List.mem_map.2 ⟨_, h, rfl⟩)
    cases hv : changes.scalars.get? spec.name with
    | some v => exact absurd (.inl ⟨v, hv, rfl⟩) (habsent _)
    | none =>
      cases hvalues : (inlineAdds declaration action changes).get? spec.name with
      | some values => exact absurd (.inr ⟨values, hvalues, rfl⟩) (habsent _)
      | none => rfl

theorem mem_primaryItem_names {option : String × Json}
    (h : option ∈ (primaryItem declaration action changes).entries) :
    option.1 = "all" ∨ ∃ spec, declaration.attribute? option.1 = some spec := by
  obtain ⟨name, value⟩ := option
  rw [Dict.mem_entries_iff, primaryItem, Dict.ofList] at h
  rcases Dict.get?_insertMany_cases ∅ (encodedOptions declaration (changes.scalars.mapValues .scalar) ++
      encodedOptions declaration ((inlineAdds declaration action changes).mapValues .list) ++
        [("all", Json.bool true)]) name with ⟨value, hmem, -⟩ | ⟨-, hget⟩
  · rw [List.mem_append, List.mem_append, List.mem_singleton] at hmem
    rcases hmem with (hmem | hmem) | hmem
    · obtain ⟨-, spec, -, hspec, -⟩ := mem_encodedOptions.1 hmem
      exact .inr ⟨spec, hspec⟩
    · obtain ⟨-, spec, -, hspec, -⟩ := mem_encodedOptions.1 hmem
      exact .inr ⟨spec, hspec⟩
    · exact .inl (congrArg Prod.fst hmem)
  · rw [hget] at h
    simp at h

include regular in
theorem assigns_primaryItem (hcomes : Comes declaration desired changes)
    (hallowed : ∀ spec scalars, Asks declaration desired spec scalars → spec.isList = true →
      ∀ v ∈ scalars, allowed spec.name v) :
    ∀ option ∈ (primaryItem declaration action changes).entries,
      Assigns declaration allowed option := by
  rintro ⟨name, value⟩ hoption
  rcases mem_primaryItem_names hoption with rfl | ⟨spec, hattribute⟩
  · exact .control value (by decide)
  obtain ⟨hspec, rfl⟩ := regular.attribute?_eq_some_iff.1 hattribute
  rw [Dict.mem_entries_iff, get?_primaryItem regular hcomes hspec, Option.or_eq_some_iff] at hoption
  rcases hoption with hoption | ⟨-, hoption⟩
  · obtain ⟨v, hv, rfl⟩ := Option.map_eq_some_iff.1 hoption
    obtain ⟨other, hother, hname, hidentity, hscalar, hkeeps⟩ := hcomes.scalars _ v hv
    obtain rfl := regular.eq_of_name_eq hother hspec hname
    rcases hkeeps with rfl | hkeeps
    · exact .clear hspec hidentity
    · refine @Assigns.set _ _ _ [v] _ hspec hidentity ?_ ⟨by simp, by simpa using hkeeps,
        by simp [hscalar], by simp, by simp⟩
      have hne := hkeeps.ne_null
      rw [Stored.unwrap_specEncode, Stored.asList, AttrValue.toJson]
      cases v <;> simp_all [Scalar.toJson, AttributeSpec.elements]
  · obtain ⟨values, hvalues, rfl⟩ := Option.map_eq_some_iff.1 hoption
    obtain ⟨other, scalars, hname, hlist, hasks, hne, hnodup, hsub⟩ :=
      hcomes.adds _ values (get?_inlineAdds hvalues).1
    obtain rfl := regular.eq_of_name_eq hasks.mem hspec hname
    refine @Assigns.set _ _ _ values _ hspec hasks.identity ?_ ⟨hne,
      fun v hv ↦ hasks.keeps v (hsub v hv), fun _ v hv ↦ hallowed _ scalars hasks hlist v (hsub v hv), hnodup,
      fun hcard ↦ absurd hcard (Stored.cardinality_ne_scalar hlist)⟩
    rw [Stored.unwrap_specEncode, Stored.asList, AttrValue.toJson, Stored.elements_arr]

theorem primaryCall_eq_some (h : primaryCall declaration identity action changes = some call) :
    call = {
      method := if action = .add then declaration.methods.add else declaration.methods.modify
      positional := declaration.positional identity
      item := primaryItem declaration action changes } ∧
      (creates declaration action = true ∨ changes.scalars.isEmpty = false) := by
  unfold primaryCall at h
  split at h
  · simp at h
  next hneeded =>
    refine ⟨(Option.some.inj h).symm, ?_⟩
    simp only [Bool.and_eq_true, Bool.not_eq_true', not_and, Bool.not_eq_false] at hneeded
    by_cases hempty : changes.scalars.isEmpty
    · exact .inl (hneeded hempty)
    · exact .inr (by simpa using hempty)

include regular in
/-- The first call creates the object if that takes a call of its own, and else changes it. -/
theorem ofMethod?_primaryCall (hcomes : Comes declaration desired changes)
    (h : primaryCall declaration identity action changes = some call) :
    ofMethod? declaration call.method call.arguments =
      some (if creates declaration action then .add else .modify) := by
  obtain ⟨rfl, hneeded⟩ := primaryCall_eq_some h
  by_cases hcreates : creates declaration action = true
  · have hboth : action = .add ∧ declaration.creation = .explicit := by
      simpa [creates] using hcreates
    rw [if_pos hcreates]
    simp only [hboth.1, if_true]
    exact ofMethod?_add regular hboth.2 _
  · have hne : action ≠ .add := by
      rintro rfl
      -- An object that its first list value creates has no scalars of its own.
      have himplicit : declaration.creation = .implicit := by
        cases hcase : declaration.creation with
        | explicit => simp [creates, hcase] at hcreates
        | implicit => rfl
      have hsome := hneeded.resolve_left hcreates
      rw [← Bool.not_eq_true, Dict.isEmpty_iff, Dict.eq_empty_iff] at hsome
      obtain ⟨name, hname⟩ := not_forall.1 hsome
      obtain ⟨v, hv⟩ := Option.ne_none_iff_exists'.1 hname
      obtain ⟨spec, hspec, -, hidentity, hscalar, -⟩ := hcomes.scalars name v hv
      rcases (regular.implicit_lists himplicit).2 spec hspec with h | ⟨h, -⟩
      · simp [hidentity] at h
      · simp [hscalar] at h
    rw [if_neg hcreates]
    simp only [hne, if_false]
    exact ofMethod?_modify regular _

/-! ## The calls of list methods -/

theorem afterPrimary_listRemoves (action : Action) :
    (afterPrimary declaration action changes).listRemoves = changes.listRemoves := by
  unfold afterPrimary
  split <;> rfl

/-- What is left after the first call comes from the same values. -/
theorem comes_afterPrimary (hcomes : Comes declaration desired changes) :
    Comes declaration desired (afterPrimary declaration action changes) := by
  unfold afterPrimary
  split
  · refine ⟨fun name v h ↦ by simp at h, fun name values h ↦ ?_, hcomes.removes⟩
    rw [Dict.get?_filter, Option.filter_eq_some_iff] at h
    exact hcomes.adds name values h.1
  · exact ⟨fun name v h ↦ by simp at h, hcomes.adds, hcomes.removes⟩

variable {lists : Dict (List Scalar)} {adding : Bool} {method : String}

include regular

/-- A call of a list method, with the values of the lists that it takes. -/
theorem get?_phaseTable_routed (hmethod : method ≠ declaration.methods.modify)
    (h : (phaseTable declaration identity adding lists).get? method = some call) :
    Holds declaration (declaration.positional identity) adding method lists.entries call ∧
      ∃ spec ∈ routedBy declaration adding method, ∃ values,
        lists.get? spec.name = some values := by
  rw [get?_phaseTable_of_ne identity lists hmethod, routedCalls] at h
  have hgathered : Gathered declaration (declaration.positional identity) adding method
      lists.entries _ := gathered_foldl regular lists.nodup_keys
  rcases hgathered with ⟨hnone, -⟩ | ⟨call', hcall, hholds, spec, hspec, hname⟩
  · simp [hnone] at h
  · cases h.symm.trans hcall
    exact ⟨hholds, spec, hspec, Option.isSome_iff_exists.1 ((lists.contains_iff _).2 hname)⟩

/-- The values that the service reads from a call of a list method. -/
theorem routedValues?_of_holds (spells : declaration.Spells identity texts)
    (h : Holds declaration (declaration.positional identity) adding method lists.entries call)
    {spec : AttributeSpec} (hspec : spec ∈ routedBy declaration adding method) :
    routedValues? call.arguments declaration.identityAttributes.length spec =
      (lists.get? spec.name).map fun values ↦ .arr (values.map Scalar.toJson) := by
  obtain ⟨-, route, hroute, -⟩ := mem_routedBy.1 hspec
  have hvalues := h.values spec hspec route hroute
  rw [spells.length_positional regular] at hvalues
  have hread : routedValues? call.arguments declaration.identityAttributes.length spec =
      (valueAt declaration.identityAttributes.length route call).map Stored.unwrap := by
    simp only [routedValues?, hroute, Option.bind_eq_bind, Option.bind_some, valueAt,
      RemoteCall.arguments, Option.map_eq_bind]
    cases route.style <;> rfl
  rw [hread, hvalues, Option.map_map]
  refine congrArg₂ Option.map (funext fun values ↦ ?_) rfl
  exact Stored.unwrap_specEncode spec (.list values)

theorem carries_of_holds (spells : declaration.Spells identity texts)
    (h : Holds declaration (declaration.positional identity) adding method lists.entries call)
    {spec : AttributeSpec} (hspec : spec ∈ routedBy declaration adding method) {values : List Scalar}
    (hvalues : lists.get? spec.name = some values) :
    carries declaration call.arguments spec = true := by
  obtain ⟨-, route, hroute, -⟩ := mem_routedBy.1 hspec
  have hat := h.values spec hspec route hroute
  have hget : Dict.lookupEntry spec.name lists.entries = some values := hvalues
  rw [hget, Option.map_some, spells.length_positional regular, valueAt] at hat
  unfold carries
  rw [hroute]
  cases hstyle : route.style with
  | keyword =>
    simp only [hstyle] at hat ⊢
    unfold Dict.contains
    rw [RemoteCall.arguments, hat, Option.isSome_some]
  | positional =>
    simp only [hstyle] at hat ⊢
    exact decide_eq_true (List.getElem?_eq_some_iff.1 hat).1

/-- A call of a phase either carries assignments or belongs to the methods of some lists. -/
theorem phase_cases (spells : declaration.Spells identity texts)
    (h : (phaseTable declaration identity adding lists).get? method = some call) :
    identityOf declaration call.positional = .ok texts ∧
      ((method = declaration.methods.modify ∧
        call = assignCall declaration (declaration.positional identity) adding
          (assignments declaration lists) ∧
        ofMethod? declaration call.method call.arguments = some .modify) ∨
      (method ≠ declaration.methods.modify ∧
        Holds declaration (declaration.positional identity) adding method lists.entries call ∧
        ofMethod? declaration call.method call.arguments =
          some (if adding then .listAdd (routedBy declaration adding method)
            else .listRemove (routedBy declaration adding method)))) := by
  by_cases hmethod : method = declaration.methods.modify
  · subst hmethod
    rw [get?_phaseTable_modify regular] at h
    cases htexts : assignments declaration lists with
    | nil => simp [htexts] at h
    | cons text rest =>
      rw [htexts] at h
      cases Option.some.inj h
      have hidentity := spells.identityOf_positional regular
      exact ⟨hidentity, .inl ⟨rfl, rfl, ofMethod?_modify regular _⟩⟩
  · obtain ⟨hholds, spec, hspec, values, hvalues⟩ := get?_phaseTable_routed regular hmethod h
    obtain ⟨others, hothers⟩ := hholds.leading
    have hcarries := carries_of_holds regular spells hholds hspec hvalues
    refine ⟨hothers ▸ spells.identityOf_eq regular others, .inr ⟨hmethod, hholds, ?_⟩⟩
    rw [hholds.method_eq]
    cases adding
    · exact ofMethod?_listRemove regular hspec hcarries
    · exact ofMethod?_listAdd regular hspec hcarries

/-! ## All calls -/

theorem isList_of_routed {spec : AttributeSpec} (hspec : spec ∈ routedBy declaration adding method) :
    spec.isList = true := by
  obtain ⟨hmem, route, hroute, -⟩ := mem_routedBy.1 hspec
  by_contra hscalar
  rw [(regular.scalar_plain spec hmem (by simpa using hscalar)).1] at hroute
  simp at hroute

omit regular in
theorem mem_assignItem {texts : List String} {option : String × Json}
    (h : option ∈ (assignItem adding texts).entries) :
    option = (if adding then "addattr" else "delattr", .ofStrings texts) ∨
      option = ("all", .bool true) := by
  obtain ⟨name, value⟩ := option
  rw [Dict.mem_entries_iff, assignItem] at h
  rcases Dict.get?_insertMany_cases ∅ [(if adding then "addattr" else "delattr",
    Json.ofStrings texts), ("all", .bool true)] name with ⟨value', hmem, hget⟩ | ⟨-, hget⟩
  · cases hget.symm.trans h
    simpa using hmem
  · rw [hget] at h
    simp at h

section

variable (valid : Valid declaration desired identity texts) (hcomes : Comes declaration desired changes)
  (hallowed : ∀ spec scalars, Asks declaration desired spec scalars → spec.isList = true →
    ∀ v ∈ scalars, allowed spec.name v)

include valid hcomes hallowed

theorem concerns_primaryCall (h : primaryCall declaration identity action changes = some call) :
    Concerns declaration texts allowed call := by
  have hoperation := ofMethod?_primaryCall regular hcomes h
  obtain ⟨rfl, -⟩ := primaryCall_eq_some h
  have hidentity := valid.spells.identityOf_positional regular
  refine ⟨_, hoperation, ?_, hidentity, ?_⟩
  · cases creates declaration action <;> simp
  · cases creates declaration action <;> exact assigns_primaryItem regular hcomes hallowed

theorem concerns_additions (hcall : call ∈ phaseCalls declaration identity true changes.listAdds) :
    Concerns declaration texts allowed call := by
  rw [phaseCalls_eq, Dict.mem_values_iff] at hcall
  obtain ⟨method, hcall⟩ := hcall
  obtain ⟨hidentity, ⟨-, rfl, hoperation⟩ | ⟨-, hholds, hoperation⟩⟩ :=
    phase_cases regular valid.spells hcall
  · refine ⟨.modify, hoperation, by simp, hidentity, fun option hoption ↦ ?_⟩
    rcases mem_assignItem hoption with rfl | rfl
    · refine .add fun text htext ↦ ?_
      obtain ⟨name, values, spec, hget, hattribute, -, v, hv, rfl⟩ := mem_assignments.1 htext
      obtain ⟨hmem, rfl⟩ := regular.attribute?_eq_some_iff.1 hattribute
      obtain ⟨other, scalars, hname, hlist, hasks, -, -, hsub⟩ := hcomes.adds _ values hget
      obtain rfl := regular.eq_of_name_eq hasks.mem hmem hname
      have hkeeps := hasks.keeps v (hsub v hv)
      obtain ⟨s, rfl⟩ := hkeeps.exists_str (regular.list_text _ hmem hlist).1
      exact ⟨_, hmem, hlist, s, rfl, hkeeps, hallowed _ scalars hasks hlist _ (hsub _ hv)⟩
    · exact .control _ (by decide)
  · refine ⟨_, hoperation, by simp, hidentity, fun spec hspec raw hraw ↦ ?_⟩
    rw [routedValues?_of_holds regular valid.spells hholds hspec] at hraw
    obtain ⟨values, hvalues, rfl⟩ := Option.map_eq_some_iff.1 hraw
    obtain ⟨other, scalars, hname, hlist, hasks, hne, -, hsub⟩ := hcomes.adds _ values hvalues
    obtain rfl := regular.eq_of_name_eq hasks.mem (mem_routedBy.1 hspec).1 hname
    exact ⟨values, hasks.mem, hlist, rfl, hne,
      fun v hv ↦ ⟨hasks.keeps v (hsub v hv), hallowed _ scalars hasks hlist v (hsub v hv)⟩⟩

omit hallowed in
theorem concerns_removals
    (hcall : call ∈ phaseCalls declaration identity false changes.listRemoves) :
    Concerns declaration texts allowed call := by
  rw [phaseCalls_eq, Dict.mem_values_iff] at hcall
  obtain ⟨method, hcall⟩ := hcall
  obtain ⟨hidentity, ⟨-, rfl, hoperation⟩ | ⟨-, hholds, hoperation⟩⟩ :=
    phase_cases regular valid.spells hcall
  · refine ⟨.modify, hoperation, by simp, hidentity, fun option hoption ↦ ?_⟩
    rcases mem_assignItem hoption with rfl | rfl
    · refine .drop fun text htext ↦ ?_
      obtain ⟨name, values, spec, hget, hattribute, -, v, hv, rfl⟩ := mem_assignments.1 htext
      obtain ⟨hmem, rfl⟩ := regular.attribute?_eq_some_iff.1 hattribute
      obtain ⟨other, hother, hname, hlist⟩ := hcomes.removes _ values hget
      obtain rfl := regular.eq_of_name_eq hother hmem hname
      exact ⟨_, hmem, hlist, v.display, rfl⟩
    · exact .control _ (by decide)
  · exact ⟨_, hoperation, by simp, hidentity, fun spec hspec ↦
      ⟨(mem_routedBy.1 hspec).1, isList_of_routed regular hspec⟩⟩

theorem concerns_listCalls (hcall : call ∈ listCalls declaration identity changes) :
    Concerns declaration texts allowed call := by
  rcases List.mem_append.1 hcall with hcall | hcall
  · exact concerns_additions regular valid hcomes hallowed hcall
  · exact concerns_removals regular valid hcomes hcall

end

omit regular in
theorem enableCall_eq_some {state : TargetState} {object : RemoteObject}
    (h : enableCall declaration identity state object = .ok (some call)) :
    ∃ enabled flag, Difference.forcedFlag declaration state = some (enabled, flag) ∧
      call = .plain (if enabled then declaration.methods.enable else declaration.methods.disable)
        (declaration.positional identity) := by
  unfold enableCall at h
  cases hforced : Difference.forcedFlag declaration state with
  | none => simp [hforced] at h
  | some forced =>
    obtain ⟨enabled, flag⟩ := forced
    simp only [hforced] at h
    obtain ⟨stored, -, h⟩ := bind_eq_ok.1 h
    split at h
    · simp [pure, Except.pure] at h
    · exact ⟨enabled, flag, rfl, (Option.some.inj (Except.ok.inj h)).symm⟩

theorem concerns_enableCall (valid : Valid declaration desired identity texts)
    {object : RemoteObject}
    (h : enableCall declaration identity desired.state object = .ok (some call)) :
    Concerns declaration texts allowed call := by
  have hidentity := valid.spells.identityOf_positional regular
  obtain ⟨enabled, flag, hforced, rfl⟩ := enableCall_eq_some h
  have hsome : declaration.enable.isSome := by
    rw [(forcedFlag_eq_some_iff.1 hforced).2, Option.isSome_some]
  exact ⟨.setEnabled enabled, ofMethod?_setEnabled regular enabled hsome _, by simp, hidentity,
    trivial⟩

theorem concerns_removeCall (valid : Valid declaration desired identity texts) :
    Concerns declaration texts allowed (removeCall declaration identity) := by
  have hidentity := valid.spells.identityOf_positional regular
  exact ⟨.remove, ofMethod?_remove regular _, by simp, hidentity, trivial⟩

end Ensure

end DirectoryReconcile
