import DirectoryReconcile.Proofs.Directory.Effects
import DirectoryReconcile.Proofs.Ensure.Calls
import DirectoryReconcile.Proofs.Ensure.Due

/-!
# What the calls of a run do

Which scalars an object stores after the service carried out a call of a run on it, told from those
that it stored before. Attributes of the identity never change.
-/

namespace DirectoryReconcile

namespace Ensure

open Declaration Entry Operation

variable {declaration : Declaration} {desired : DesiredState} {identity : Identity}
  {texts : List String} {allowed : String → Scalar → Prop} {changes : ChangeSet} {call : RemoteCall}
  {action : Action} {held held' : Option Entry} {result : Json} {spec : AttributeSpec} {v : Scalar}

/-- The service carries out a call on an object, or on none, and reports a result. -/
def Answers (declaration : Declaration) (held : Option Entry) (call : RemoteCall) (result : Json)
    (held' : Option Entry) : Prop :=
  ∃ operation entries, ofMethod? declaration call.method call.arguments = some operation ∧
    operation.perform declaration held.toList call.arguments = .ok (result, entries) ∧
      entries.head? = held'

theorem Answers.leaves {operation : Operation} (h : Answers declaration held call result held')
    (hoperation : ofMethod? declaration call.method call.arguments = some operation)
    (hfind : operation ≠ .find) (hid : identityOf declaration call.arguments.positional = .ok texts)
    (hnamed : NamedBy texts held) :
    Leaves declaration texts call.arguments operation held result held' := by
  obtain ⟨other, left, hother, hperform, rfl⟩ := h
  cases hoperation.symm.trans hother
  exact leaves_of_perform hfind hid hnamed hperform

/-- Lists of values that an object may hold. -/
def Holdable (declaration : Declaration) (allowed : String → Scalar → Prop)
    (lists : Dict (List Scalar)) : Prop :=
  ∀ spec ∈ declaration.attributes, ∀ values, lists.get? spec.name = some values →
    spec.isList = true ∧ values ≠ [] ∧ ∀ v ∈ values, spec.Keeps v ∧ allowed spec.name v

/-! ## Objects after a call -/

/-- The attributes that list values are added to or removed from. -/
def baseAttrs (declaration : Declaration) (texts : List String) (held : Option Entry) : Dict Json :=
  (held.map (·.attrs)).getD (named declaration texts).attrs

theorem attrs_of_lists {arguments : Arguments} {adding : Bool} {specs : List AttributeSpec}
    (h : Leaves declaration texts arguments
      (if adding then .listAdd specs else .listRemove specs) held result held') :
    ∃ attrs, (changeLists (Stored.shift adding) arguments texts.length specs
        (baseAttrs declaration texts held)).1 = attrs ∧
      ((∃ entry, held' = some entry ∧ entry.attrs = attrs) ∨
        held' = none ∧ adding = false ∧ isEmptied declaration attrs = true) := by
  cases adding with
  | true =>
    rw [if_pos rfl] at h
    cases h with
    | begun _ hpushed => exact ⟨_, hpushed, .inl ⟨_, rfl, rfl⟩⟩
    | extended hpushed => exact ⟨_, hpushed, .inl ⟨_, rfl, rfl⟩⟩
  | false =>
    rw [if_neg Bool.false_ne_true] at h
    cases h with
    | reduced hdropped => exact ⟨_, hdropped, .inl ⟨_, rfl, rfl⟩⟩
    | emptied hdropped hemptied => exact ⟨_, hdropped, .inr ⟨rfl, rfl, hemptied⟩⟩

variable (regular : declaration.Regular)

include regular

theorem scalars_named (hspec : spec ∈ declaration.attributes) (hidentity : spec.identity = false) :
    Stored.scalars (named declaration texts).attrs spec = [] := by
  apply Stored.scalars_of_none
  cases hget : (named declaration texts).attrs.get? spec.responseKey with
  | none => rfl
  | some value =>
    obtain ⟨⟨other, text⟩, hpair, heq⟩ := List.mem_map.1 (Dict.mem_of_get?_ofList hget)
    obtain ⟨hother, hidentity'⟩ := mem_identityAttributes.1 (List.of_mem_zip hpair).1
    exact absurd (Prod.mk.inj heq).1.symm
      (Stored.responseKey_ne regular hspec hidentity hother hidentity')

theorem scalars_baseAttrs (hspec : spec ∈ declaration.attributes)
    (hidentity : spec.identity = false) :
    Stored.scalars (baseAttrs declaration texts held) spec = stock held spec := by
  cases held with
  | none => exact scalars_named regular hspec hidentity
  | some entry => rfl

theorem sound_baseAttrs (hlength : texts.length = declaration.identityAttributes.length)
    (hheld : ∀ entry ∈ held, entry.Sound declaration allowed) :
    Stored.Sound declaration allowed (baseAttrs declaration texts held) := by
  cases held with
  | none => exact (sound_named regular hlength).stored
  | some entry => exact (hheld entry rfl).stored

/-- An object without list values is gone when a list value would have created it. -/
theorem scalars_of_isEmptied {attrs : Dict Json} (h : isEmptied declaration attrs = true)
    (hspec : spec ∈ declaration.attributes) (hidentity : spec.identity = false) :
    Stored.scalars attrs spec = [] := by
  unfold isEmptied at h
  rw [Bool.and_eq_true, decide_eq_true_eq, Bool.not_eq_true', List.any_eq_false] at h
  obtain ⟨himplicit, hnone⟩ := h
  have hrouted : spec.route.isSome := by
    rcases (regular.implicit_lists himplicit).2 spec hspec with hid | ⟨-, hrouted⟩
    · simp [hidentity] at hid
    · exact hrouted
  have hcontains := hnone spec (List.mem_filter.2 ⟨hspec, hrouted⟩)
  exact Stored.scalars_of_none (by simpa [Dict.contains] using hcontains)

/-! ## Calls of list methods -/

variable {lists : Dict (List Scalar)} {adding : Bool} {method : String}

omit regular in
theorem entries_assignItem (adding : Bool) (assignments : List String) :
    (assignItem adding assignments).entries =
      if adding then [("addattr", .ofStrings assignments), ("all", .bool true)]
      else [("all", .bool true), ("delattr", .ofStrings assignments)] := by
  have hempty : (∅ : Dict Json).entries = [] := rfl
  have hbefore : ¬"all" < "addattr" := by decide +kernel
  have hafter : "all" < "delattr" := by decide +kernel
  have hne : "all" ≠ "addattr" := by decide
  cases adding with
  | true =>
    simp only [assignItem, Dict.insertMany, List.foldl_cons, List.foldl_nil, Dict.insert, hempty,
      Dict.insertEntry, if_true, hbefore, hne, if_false]
  | false =>
    simp only [assignItem, Dict.insertMany, List.foldl_cons, List.foldl_nil, Dict.insert, hempty,
      Dict.insertEntry, Bool.false_eq_true, if_false, hafter, if_true]

omit regular in
theorem applyOptions_assignItem (attrs : Dict Json) (adding : Bool) (assignments : List String) :
    applyOptions declaration attrs (assignItem adding assignments) =
      (assignments.map Json.str).foldlM
        (applyAssignment (if adding then "addattr" else "delattr")) attrs := by
  have hcontrol (attrs : Dict Json) (value : Json) :
      applyOption declaration attrs ("all", value) = .ok attrs := rfl
  unfold applyOptions
  rw [entries_assignItem]
  cases adding with
  | true =>
    simp only [if_true, List.foldlM_cons, List.foldlM_nil, hcontrol]
    exact bind_pure (applyOption declaration attrs ("addattr", .ofStrings assignments))
  | false =>
    simp only [Bool.false_eq_true, if_false, List.foldlM_cons, List.foldlM_nil, hcontrol]
    exact bind_pure (applyOption declaration attrs ("delattr", .ofStrings assignments))

/-- A value of a list without methods of its own is among the assignments. -/
theorem exists_assignment_iff (hlists : Holdable declaration allowed lists)
    (hspec : spec ∈ declaration.attributes) (p : Scalar → Prop) :
    (∃ s, p (.str s) ∧ spec.responseKey ++ "=" ++ s ∈ assignments declaration lists) ↔
      belongs declaration adding declaration.methods.modify spec.name = true ∧
        ∃ values, lists.get? spec.name = some values ∧ ∃ v ∈ values, p v := by
  have hbelongs : belongs declaration adding declaration.methods.modify spec.name = true ↔
      spec.route = none := by
    unfold belongs
    rw [regular.attribute?_of_mem hspec, Option.any_some, decide_eq_true_eq, listMethod]
    cases hroute : spec.route with
    | none => simp
    | some route =>
      have hmethod : route.method adding ≠ declaration.methods.modify := fun h ↦
        (regular.routes_named spec hspec route hroute adding).1
          (h ▸ modify_mem_commandMethods declaration)
      simpa using hmethod
  have htext {spec : AttributeSpec} (hspec : spec ∈ declaration.attributes) {values : List Scalar}
      (hvalues : lists.get? spec.name = some values) {v : Scalar} (hv : v ∈ values) :
      ∃ s, v = .str s := by
    obtain ⟨hlist, -, hkeeps⟩ := hlists spec hspec values hvalues
    exact (hkeeps v hv).1.exists_str (regular.list_text spec hspec hlist).1
  rw [hbelongs]
  constructor
  · rintro ⟨s, hp, hmem⟩
    obtain ⟨name, values, other, hvalues, hattribute, hroute, w, hw, heq⟩ := mem_assignments.1 hmem
    obtain ⟨hother, rfl⟩ := regular.attribute?_eq_some_iff.1 hattribute
    obtain ⟨t, rfl⟩ := htext hother hvalues hw
    obtain ⟨rfl, rfl⟩ := (assignment_inj regular hother hspec).1 heq
    exact ⟨hroute, values, hvalues, _, hw, hp⟩
  · rintro ⟨hroute, values, hvalues, v, hv, hp⟩
    obtain ⟨s, rfl⟩ := htext hspec hvalues hv
    exact ⟨s, hp, mem_assignments.2
      ⟨spec.name, values, spec, hvalues, regular.attribute?_of_mem hspec, hroute, _, hv, rfl⟩⟩

omit regular in
theorem mem_routedBy_iff_belongs (hspec : spec ∈ declaration.attributes)
    (hattribute : declaration.attribute? spec.name = some spec)
    (hmethod : method ≠ declaration.methods.modify) :
    spec ∈ routedBy declaration adding method ↔
      belongs declaration adding method spec.name = true := by
  rw [mem_routedBy, belongs, hattribute, Option.any_some, decide_eq_true_eq, listMethod]
  cases hroute : spec.route with
  | none => simp [hmethod.symm]
  | some route => simp [hspec]

/-- A call of a list method adds its values to the lists that they belong to, or removes them. -/
theorem exists_stock_phaseCall (spells : declaration.Spells identity texts) {p : Scalar → Prop}
    (hpicks : Picks allowed spec.name p) (hlists : Holdable declaration allowed lists)
    (hnamed : NamedBy texts held) (hheld : ∀ entry ∈ held, entry.Sound declaration allowed)
    (hcall : (phaseTable declaration identity adding lists).get? method = some call)
    (h : Answers declaration held call result held') (hspec : spec ∈ declaration.attributes)
    (hidentity : spec.identity = false) :
    (∃ v ∈ stock held' spec, p v) ↔ Moved adding (∃ v ∈ stock held spec, p v)
      (belongs declaration adding method spec.name = true ∧
        ∃ values, lists.get? spec.name = some values ∧ ∃ v ∈ values, p v) := by
  obtain ⟨hid, ⟨rfl, rfl, hoperation⟩ | ⟨hmethod, hholds, hoperation⟩⟩ :=
    phase_cases regular spells hcall
  · obtain ⟨found, attrs, rfl, rfl, happlied⟩ :
        ∃ found attrs, held = some found ∧ held' = some { found with attrs := attrs } ∧
          applyOptions declaration found.attrs
            (assignItem adding (assignments declaration lists)) = .ok attrs := by
      cases h.leaves hoperation (by simp) hid hnamed with
      | changed happlied => exact ⟨_, _, rfl, rfl, happlied⟩
    rw [← exists_assignment_iff regular hlists hspec p]
    rw [applyOptions_assignItem] at happlied
    refine exists_scalars_assignments regular hpicks (fun text htext ↦ ?_)
      (hheld found rfl).stored happlied hspec
    obtain ⟨name, values, other, hvalues, hattribute, -, w, hw, rfl⟩ := mem_assignments.1 htext
    obtain ⟨hother, rfl⟩ := regular.attribute?_eq_some_iff.1 hattribute
    obtain ⟨hlist, -, hkeeps⟩ := hlists other hother values hvalues
    obtain ⟨s, rfl⟩ := (hkeeps w hw).1.exists_str (regular.list_text other hother hlist).1
    exact ⟨other, hother, hlist, s, rfl, (hkeeps _ hw).1, (hkeeps _ hw).2⟩
  · have hlength : texts.length = declaration.identityAttributes.length := spells.length_eq
    obtain ⟨attrs, hattrs, hleft⟩ :=
      attrs_of_lists (h.leaves hoperation (by cases adding <;> simp) hid hnamed)
    have hcarries : ∀ spec ∈ routedBy declaration adding method, ∀ raw,
        routedValues? call.arguments texts.length spec = some raw →
          ∃ values, Stored.Carries declaration allowed spec raw values := by
      intro spec hrouted raw hraw
      rw [hlength, routedValues?_of_holds regular spells hholds hrouted] at hraw
      obtain ⟨values, hvalues, rfl⟩ := Option.map_eq_some_iff.1 hraw
      have hmem := (mem_routedBy.1 hrouted).1
      obtain ⟨hlist, hne, hkeeps⟩ := hlists spec hmem values hvalues
      exact ⟨values, hmem, hlist, rfl, hne, hkeeps⟩
    have hmoved : (∃ v ∈ Stored.scalars attrs spec, p v) ↔ Moved adding (∃ v ∈ stock held spec, p v)
        (belongs declaration adding method spec.name = true ∧
          ∃ values, lists.get? spec.name = some values ∧ ∃ v ∈ values, p v) := by
      rw [← hattrs, exists_scalars_changeLists regular hpicks adding hcarries
        (sound_baseAttrs regular hlength hheld) hspec, scalars_baseAttrs regular hspec hidentity]
      apply moved_congr Iff.rfl
      rw [← mem_routedBy_iff_belongs hspec (regular.attribute?_of_mem hspec) hmethod]
      apply and_congr_right
      intro hrouted
      rw [hlength, routedValues?_of_holds regular spells hholds hrouted]
      cases lists.get? spec.name <;> simp [Stored.elements_arr, Scalar.toJson_injective.eq_iff]
    rw [← hmoved]
    rcases hleft with ⟨entry, rfl, rfl⟩ | ⟨rfl, -, hemptied⟩
    · rfl
    · rw [scalars_of_isEmptied regular hemptied hspec hidentity]
      rfl

theorem mem_stock_phaseCall (spells : declaration.Spells identity texts)
    (hdistinct : Distinguishes allowed) (hlists : Holdable declaration allowed lists)
    (hnamed : NamedBy texts held) (hheld : ∀ entry ∈ held, entry.Sound declaration allowed)
    (hcall : (phaseTable declaration identity adding lists).get? method = some call)
    (h : Answers declaration held call result held') (hspec : spec ∈ declaration.attributes)
    (hidentity : spec.identity = false) :
    v ∈ stock held' spec ↔ Moved adding (v ∈ stock held spec)
      (belongs declaration adding method spec.name = true ∧
        ∃ values, lists.get? spec.name = some values ∧ v ∈ values) := by
  simpa using exists_stock_phaseCall regular spells (hdistinct.picks_eq spec.name v) hlists hnamed
    hheld hcall h hspec hidentity

/-! ## The first call -/

/-- The scalars of an attribute after the first call. -/
def primaryStock (declaration : Declaration) (action : Action) (changes : ChangeSet)
    (held : Option Entry) (spec : AttributeSpec) : List Scalar :=
  match changes.scalars.get? spec.name with
  | some v => if v.isNull then [] else [v]
  | none => ((inlineAdds declaration action changes).get? spec.name).getD (stock held spec)

theorem scalars_applyOptions (hcomes : Comes declaration desired changes) {attrs after : Dict Json}
    (h : applyOptions declaration attrs (primaryItem declaration action changes) = .ok after)
    (hspec : spec ∈ declaration.attributes)
    (hstock : Stored.scalars attrs spec = stock held spec) :
    Stored.scalars after spec = primaryStock declaration action changes held spec := by
  have hoptions : ∀ option ∈ (primaryItem declaration action changes).entries,
      option.1 ∈ controlKeys ∨ ∃ spec ∈ declaration.attributes, spec.name = option.1 := by
    intro option hoption
    rcases mem_primaryItem_names hoption with hname | ⟨spec, hattribute⟩
    · exact .inl (by simp [hname, controlKeys])
    · exact .inr ⟨spec, regular.attribute?_eq_some_iff.1 hattribute⟩
  have hget := get?_foldlM_applyOption regular
    (primaryItem declaration action changes).nodup_keys hoptions h hspec
  have hlookup : (primaryItem declaration action changes).get? spec.name = _ :=
    get?_primaryItem regular hcomes hspec
  rw [Dict.get?] at hlookup
  rw [hlookup] at hget
  unfold primaryStock
  cases hscalar : changes.scalars.get? spec.name with
  | some v =>
    simp only [hscalar, Option.map_some, Option.some_or, Stored.unwrap_specEncode,
      AttrValue.toJson] at hget ⊢
    have hnull : v.toJson.isNull = v.isNull := by cases v <;> rfl
    rw [hnull] at hget
    cases hv : v.isNull with
    | true => exact Stored.scalars_of_none (by simpa [hv] using hget)
    | false =>
      have hsingle : Stored.asList v.toJson = .arr ([v].map Scalar.toJson) := by
        cases v <;> simp_all [Scalar.isNull, Scalar.toJson, Stored.asList, AttributeSpec.elements]
      rw [hv, hsingle] at hget
      exact Stored.scalars_of_get? hget
  | none =>
    cases hlist : (inlineAdds declaration action changes).get? spec.name with
    | some values =>
      simp only [hscalar, hlist, Option.map_none, Option.map_some, Option.none_or,
        Stored.unwrap_specEncode, AttrValue.toJson] at hget ⊢
      exact Stored.scalars_of_get? hget
    | none =>
      simp only [hscalar, hlist, Option.map_none, Option.none_or] at hget ⊢
      rw [Stored.scalars_congr hget, hstock, Option.getD_none]

/-- The first call sets scalars and, of an object that it creates, lists. Its report is the object
as it is afterwards. -/
theorem stock_primaryCall (spells : declaration.Spells identity texts)
    (hcomes : Comes declaration desired changes) (hnamed : NamedBy texts held)
    (hcall : primaryCall declaration identity action changes = some call)
    (h : Answers declaration held call result held') :
    creates declaration action = held.isNone ∧ ∃ entry verb, held' = some entry ∧
      result = report declaration verb (render declaration entry) (.str (primaryKey texts)) texts ∧
        ∀ spec ∈ declaration.attributes, spec.identity = false →
          stock held' spec = primaryStock declaration action changes held spec := by
  have hoperation := ofMethod?_primaryCall regular hcomes hcall
  obtain ⟨rfl, -⟩ := primaryCall_eq_some hcall
  have hid := spells.identityOf_positional regular
  have hleaves := h.leaves hoperation (by split <;> simp) hid hnamed
  cases hcreates : creates declaration action with
  | true =>
    rw [hcreates, if_pos rfl] at hleaves
    cases hleaves with
    | created happlied =>
      refine ⟨rfl, _, "Added", rfl, rfl, fun spec hspec hidentity ↦ ?_⟩
      exact scalars_applyOptions regular hcomes happlied hspec (scalars_named regular hspec hidentity)
  | false =>
    rw [hcreates, if_neg Bool.false_ne_true] at hleaves
    cases hleaves with
    | changed happlied =>
      refine ⟨rfl, _, "Modified", rfl, rfl, fun spec hspec hidentity ↦ ?_⟩
      exact scalars_applyOptions regular hcomes happlied hspec rfl

/-! ## The call that sets the flag -/

section

variable {flag : EnableSpec} (henable : declaration.enable = some flag) (enabled : Bool)
  (found : Entry)

omit regular in
theorem stock_flag_withFlag (hattribute : declaration.attribute? flag.attr = some spec) :
    stock (some { found with attrs := Operation.withFlag declaration flag enabled found.attrs })
      spec = [.bool (flag.storedValue enabled)] := by
  rw [stock, Operation.withFlag, flagKey_eq hattribute]
  exact Stored.scalars_insert_self found.attrs spec [.bool (flag.storedValue enabled)]

include henable

theorem enabledIn_withFlag :
    enabledIn declaration
      (some { found with attrs := Operation.withFlag declaration flag enabled found.attrs }) =
        enabled := by
  obtain ⟨spec, hspec, hname, -⟩ := regular.flag_declared flag henable
  have hattribute : declaration.attribute? flag.attr = some spec :=
    regular.attribute?_eq_some_iff.2 ⟨hspec, hname⟩
  unfold enabledIn
  rw [henable]
  simp only [hattribute, Option.map_some, stock_flag_withFlag enabled found hattribute]
  simp [EnableSpec.storedValue]

theorem stock_withFlag (hspec : spec ∈ declaration.attributes)
    (hunflagged : declaration.isEnableAttribute spec.name = false) :
    stock (some { found with attrs := Operation.withFlag declaration flag enabled found.attrs })
      spec = stock (some found) spec := by
  obtain ⟨own, hown, hname, -⟩ := regular.flag_declared flag henable
  have hattribute : declaration.attribute? flag.attr = some own :=
    regular.attribute?_eq_some_iff.2 ⟨hown, hname⟩
  have hne : flagKey declaration flag ≠ spec.responseKey := by
    rw [flagKey_eq hattribute]
    intro heq
    obtain rfl := regular.eq_of_responseKey_eq hown hspec heq
    simp [(regular.isEnableAttribute_iff henable hattribute hown).2 rfl] at hunflagged
  apply Stored.scalars_congr
  unfold Operation.withFlag
  rw [Dict.get?_insert, if_neg hne]

end

/-- The call sets the flag that the state forces, and nothing else. -/
theorem stock_flagCall (valid : Valid declaration desired identity texts)
    (hnamed : NamedBy texts held)
    (hcall : flagCall declaration identity desired.state held = some call)
    (h : Answers declaration held call result held') :
    held.isSome ∧ held'.isSome ∧ flagCall declaration identity desired.state held' = none ∧
      ∀ spec ∈ declaration.attributes, declaration.isEnableAttribute spec.name = false →
        stock held' spec = stock held spec := by
  unfold flagCall at hcall
  cases hforced : Difference.forcedFlag declaration desired.state with
  | none => simp [hforced] at hcall
  | some forced =>
    obtain ⟨enabled, flag⟩ := forced
    have henable := (forcedFlag_eq_some_iff.1 hforced).2
    simp only [hforced] at hcall
    split at hcall
    · simp at hcall
    cases Option.some.inj hcall
    have hid := valid.spells.identityOf_positional regular
    have hoperation := ofMethod?_setEnabled regular enabled (by rw [henable]; rfl)
    cases h.leaves (hoperation _) (by simp) hid hnamed with
    | @flagged found flag' _ _ henable' =>
      cases henable.symm.trans henable'
      refine ⟨rfl, rfl, ?_, fun other hother hunflagged ↦ ?_⟩
      · simp only [flagCall, hforced, enabledIn_withFlag regular henable, if_true]
      · exact stock_withFlag regular henable enabled found hother hunflagged

theorem held_of_removeCall (spells : declaration.Spells identity texts) (hnamed : NamedBy texts held)
    (h : Answers declaration held (removeCall declaration identity) result held') : held' = none := by
  have hid := spells.identityOf_positional regular
  cases h.leaves (ofMethod?_remove regular _) (by simp) hid hnamed with
  | removed => rfl

end Ensure

end DirectoryReconcile
