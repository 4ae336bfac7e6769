import DirectoryReconcile.Proofs.Directory.OneEntry
import DirectoryReconcile.Proofs.Directory.Stored
import DirectoryReconcile.Proofs.Schema.Regular
import DirectoryReconcile.Proofs.Steps

/-!
# Sound entries

An entry is sound when it carries its identity and every other key belongs to an attribute and
holds scalars that the attribute can read back, in lists only values that were asked for and each
of them once. Operations whose arguments give only such values keep entries sound.
-/

namespace DirectoryReconcile

/-- The scalars of an attribute in an entry: at least one, none twice, all of them readable, and in
a list only allowed ones. -/
structure AttributeSpec.Stocks (spec : AttributeSpec) (allowed : Scalar → Prop)
    (scalars : List Scalar) : Prop where
  nonempty : scalars ≠ []
  keeps : ∀ v ∈ scalars, spec.Keeps v
  allowed : spec.isList = true → ∀ v ∈ scalars, allowed v
  nodup : scalars.Nodup
  short : spec.cardinality = .scalar → scalars.length ≤ 1

namespace Stored

/-- Every key belongs to an attribute and holds a stock of its scalars. The lists hold values that
are allowed for the attribute with this name. -/
def Sound (declaration : Declaration) (allowed : String → Scalar → Prop) (attrs : Dict Json) :
    Prop :=
  ∀ key value, attrs.get? key = some value → ∃ spec ∈ declaration.attributes,
    spec.responseKey = key ∧ ∃ scalars, value = .arr (scalars.map Scalar.toJson) ∧
      spec.Stocks (allowed spec.name) scalars

/-- Attributes as sound as before, with the same identity. -/
def Preserves (declaration : Declaration) (allowed : String → Scalar → Prop)
    (before after : Dict Json) : Prop :=
  (Sound declaration allowed before → Sound declaration allowed after) ∧
    ∀ spec ∈ declaration.attributes, spec.identity = true →
      after.get? spec.responseKey = before.get? spec.responseKey

variable {declaration : Declaration} {allowed : String → Scalar → Prop} {attrs : Dict Json}
  {spec : AttributeSpec}

theorem Preserves.refl (attrs : Dict Json) : Preserves declaration allowed attrs attrs :=
  ⟨id, fun _ _ _ ↦ rfl⟩

theorem Preserves.trans {first second third : Dict Json}
    (h : Preserves declaration allowed first second)
    (h' : Preserves declaration allowed second third) :
    Preserves declaration allowed first third :=
  ⟨fun hsound ↦ h'.1 (h.1 hsound),
    fun spec hspec hidentity ↦ (h'.2 spec hspec hidentity).trans (h.2 spec hspec hidentity)⟩

/-- The key of an attribute outside the identity is not one of the identity. -/
theorem responseKey_ne (regular : declaration.Regular) (hspec : spec ∈ declaration.attributes)
    (hidentity : spec.identity = false) {other : AttributeSpec}
    (hother : other ∈ declaration.attributes) (hidentity' : other.identity = true) :
    spec.responseKey ≠ other.responseKey := fun heq ↦ by
  rw [regular.eq_of_responseKey_eq hspec hother heq, hidentity'] at hidentity
  exact absurd hidentity (by simp)

theorem preserves_insert (regular : declaration.Regular) (hspec : spec ∈ declaration.attributes)
    (hidentity : spec.identity = false) {scalars : List Scalar}
    (hscalars : spec.Stocks (allowed spec.name) scalars) :
    Preserves declaration allowed attrs
      (attrs.insert spec.responseKey (.arr (scalars.map Scalar.toJson))) := by
  refine ⟨fun hsound key value hget ↦ ?_, fun other hother hidentity' ↦ ?_⟩
  · rw [Dict.get?_insert] at hget
    split at hget
    next heq => exact ⟨spec, hspec, heq, scalars, (Option.some.inj hget).symm, hscalars⟩
    next => exact hsound key value hget
  · rw [Dict.get?_insert, if_neg (responseKey_ne regular hspec hidentity hother hidentity')]

theorem preserves_erase (regular : declaration.Regular) (hspec : spec ∈ declaration.attributes)
    (hidentity : spec.identity = false) :
    Preserves declaration allowed attrs (attrs.erase spec.responseKey) := by
  refine ⟨fun hsound key value hget ↦ ?_, fun other hother hidentity' ↦ ?_⟩
  · rw [Dict.get?_erase] at hget
    split at hget
    · simp at hget
    · exact hsound key value hget
  · rw [Dict.get?_erase, if_neg (responseKey_ne regular hspec hidentity hother hidentity')]

/-- What a sound entry holds of one attribute. -/
theorem Sound.get?_cases (regular : declaration.Regular) (hsound : Sound declaration allowed attrs)
    (hspec : spec ∈ declaration.attributes) :
    attrs.get? spec.responseKey = none ∨ ∃ scalars,
      attrs.get? spec.responseKey = some (.arr (scalars.map Scalar.toJson)) ∧
        spec.Stocks (allowed spec.name) scalars := by
  cases hget : attrs.get? spec.responseKey with
  | none => exact .inl rfl
  | some value =>
    obtain ⟨other, hother, hkey, scalars, rfl, hstocks⟩ := hsound _ value hget
    obtain rfl := regular.eq_of_responseKey_eq hother hspec hkey
    exact .inr ⟨scalars, rfl, hstocks⟩

/-- The scalars that an entry holds of an attribute. -/
def scalars (attrs : Dict Json) (spec : AttributeSpec) : List Scalar :=
  (valuesOf attrs spec.responseKey).filterMap Scalar.ofJson?

theorem filterMap_ofJson? (values : List Scalar) :
    (values.map Scalar.toJson).filterMap Scalar.ofJson? = values := by
  rw [List.filterMap_map]
  simp

theorem scalars_of_get? {values : List Scalar}
    (h : attrs.get? spec.responseKey = some (.arr (values.map Scalar.toJson))) :
    scalars attrs spec = values := by
  unfold scalars
  rw [valuesOf_of_get? h, filterMap_ofJson?]

theorem scalars_of_none (h : attrs.get? spec.responseKey = none) : scalars attrs spec = [] := by
  unfold scalars
  rw [valuesOf_of_none h]
  rfl

theorem Sound.valuesOf_eq (regular : declaration.Regular) (hsound : Sound declaration allowed attrs)
    (hspec : spec ∈ declaration.attributes) :
    valuesOf attrs spec.responseKey = (scalars attrs spec).map Scalar.toJson := by
  rcases hsound.get?_cases regular hspec with hnone | ⟨values, hget, -⟩
  · rw [scalars_of_none hnone, valuesOf_of_none hnone, List.map_nil]
  · rw [scalars_of_get? hget, valuesOf_of_get? hget]

theorem Sound.stocks (regular : declaration.Regular) (hsound : Sound declaration allowed attrs)
    (hspec : spec ∈ declaration.attributes) (hne : scalars attrs spec ≠ []) :
    spec.Stocks (allowed spec.name) (scalars attrs spec) := by
  rcases hsound.get?_cases regular hspec with hnone | ⟨values, hget, hstocks⟩
  · exact absurd (scalars_of_none hnone) hne
  · rw [scalars_of_get? hget]
    exact hstocks

theorem Sound.nodup (regular : declaration.Regular) (hsound : Sound declaration allowed attrs)
    (hspec : spec ∈ declaration.attributes) : (scalars attrs spec).Nodup := by
  by_cases hne : scalars attrs spec = []
  · rw [hne]
    exact .nil
  · exact (hsound.stocks regular hspec hne).nodup

theorem Sound.get?_eq (regular : declaration.Regular) (hsound : Sound declaration allowed attrs)
    (hspec : spec ∈ declaration.attributes) :
    attrs.get? spec.responseKey =
      if scalars attrs spec = [] then none
      else some (.arr ((scalars attrs spec).map Scalar.toJson)) := by
  rcases hsound.get?_cases regular hspec with hnone | ⟨values, hget, hstocks⟩
  · rw [if_pos (scalars_of_none hnone), hnone]
  · rw [scalars_of_get? hget, if_neg hstocks.nonempty, hget]

/-! ## Lists -/

/-- Values for a list attribute, as a call carries them. -/
structure Carries (declaration : Declaration) (allowed : String → Scalar → Prop)
    (spec : AttributeSpec) (raw : Json) (values : List Scalar) : Prop where
  mem : spec ∈ declaration.attributes
  isList : spec.isList = true
  elements : AttributeSpec.elements raw = values.map Scalar.toJson
  nonempty : values ≠ []
  keeps : ∀ v ∈ values, spec.Keeps v ∧ allowed spec.name v

variable {raw : Json} {values : List Scalar}

theorem cardinality_ne_scalar (hlist : spec.isList = true) : spec.cardinality ≠ .scalar := by
  unfold AttributeSpec.isList at hlist
  rw [decide_eq_true_eq] at hlist
  simp [hlist]

theorem get?_pushValues (regular : declaration.Regular) (hsound : Sound declaration allowed attrs)
    (hspec : spec ∈ declaration.attributes)
    (hraw : AttributeSpec.elements raw = values.map Scalar.toJson) :
    pushValues attrs spec.responseKey raw = attrs.insert spec.responseKey
      (.arr ((values.foldl Scalar.push (scalars attrs spec)).map Scalar.toJson)) := by
  unfold pushValues
  rw [hraw, hsound.valuesOf_eq regular hspec, foldl_push_map]

theorem preserves_push (regular : declaration.Regular)
    (hcarries : Carries declaration allowed spec raw values) :
    Preserves declaration allowed attrs (pushValues attrs spec.responseKey raw) := by
  have hspec := hcarries.mem
  have hidentity := (regular.list_text spec hspec hcarries.isList).2.1
  by_cases hsound : Sound declaration allowed attrs
  · rw [get?_pushValues regular hsound hspec hcarries.elements]
    have hmem {v : Scalar} (hv : v ∈ values.foldl Scalar.push (scalars attrs spec)) :
        spec.Keeps v ∧ allowed spec.name v := by
      rcases Scalar.mem_of_mem_foldl_push hv with hv | hv
      · have hstocks := hsound.stocks regular hspec (List.ne_nil_of_mem hv)
        exact ⟨hstocks.keeps v hv, hstocks.allowed hcarries.isList v hv⟩
      · exact hcarries.keeps v hv
    refine preserves_insert regular hspec hidentity ⟨?_, fun v hv ↦ (hmem hv).1,
      fun _ v hv ↦ (hmem hv).2, Scalar.nodup_foldl_push (hsound.nodup regular hspec),
      fun hcard ↦ absurd hcard (cardinality_ne_scalar hcarries.isList)⟩
    obtain ⟨value, hvalue⟩ := List.exists_mem_of_ne_nil _ hcarries.nonempty
    obtain ⟨v, hv, -⟩ := Scalar.exists_mem_foldl_push (scalars attrs spec) hvalue
    exact List.ne_nil_of_mem hv
  · refine ⟨fun h ↦ absurd h hsound, fun other hother hidentity' ↦ ?_⟩
    rw [pushValues, Dict.get?_insert,
      if_neg (responseKey_ne regular hspec hidentity hother hidentity')]

theorem stocks_of_sublist {kept : List Scalar} (hstocks : spec.Stocks (allowed spec.name) values)
    (hkept : kept.Sublist values) (hne : kept ≠ []) : spec.Stocks (allowed spec.name) kept where
  nonempty := hne
  keeps v hv := hstocks.keeps v (hkept.subset hv)
  allowed hlist v hv := hstocks.allowed hlist v (hkept.subset hv)
  nodup := hstocks.nodup.sublist hkept
  short hcard := Nat.le_trans hkept.length_le (hstocks.short hcard)

theorem preserves_drop (regular : declaration.Regular) (hspec : spec ∈ declaration.attributes)
    (hlist : spec.isList = true) (raw : Json) :
    Preserves declaration allowed attrs (dropValues attrs spec.responseKey raw) := by
  have hidentity := (regular.list_text spec hspec hlist).2.1
  unfold dropValues
  split
  next stored hget =>
    split
    next => exact preserves_erase regular hspec hidentity
    next hne =>
      by_cases hsound : Sound declaration allowed attrs
      · rcases hsound.get?_cases regular hspec with hnone | ⟨values, hvalues, hstocks⟩
        · rw [hnone] at hget
          exact absurd hget (by simp)
        · rw [hvalues, Option.some.injEq, Json.arr.injEq] at hget
          subst hget
          rw [without, List.filter_map] at hne ⊢
          refine preserves_insert regular hspec hidentity
            (stocks_of_sublist hstocks List.filter_sublist fun hnil ↦ hne ?_)
          rw [hnil]
          rfl
      · refine ⟨fun h ↦ absurd h hsound, fun other hother hidentity' ↦ ?_⟩
        rw [Dict.get?_insert, if_neg (responseKey_ne regular hspec hidentity hother hidentity')]
  next => exact .refl attrs

end Stored

namespace Operation

open Stored

variable {declaration : Declaration} {allowed : String → Scalar → Prop} {attrs : Dict Json}

/-- An option of an addition or a modification that gives attributes only values they may hold. -/
inductive Assigns (declaration : Declaration) (allowed : String → Scalar → Prop) :
    String × Json → Prop
  | control {name : String} (value : Json) (hname : name ∈ controlKeys) :
    Assigns declaration allowed (name, value)
  | add {texts : List String} (htexts : ∀ text ∈ texts, ∃ spec ∈ declaration.attributes,
      spec.isList = true ∧ ∃ s, text = spec.responseKey ++ "=" ++ s ∧ spec.Keeps (.str s) ∧
        allowed spec.name (.str s)) :
    Assigns declaration allowed ("addattr", .ofStrings texts)
  | drop {texts : List String} (htexts : ∀ text ∈ texts, ∃ spec ∈ declaration.attributes,
      spec.isList = true ∧ ∃ s, text = spec.responseKey ++ "=" ++ s) :
    Assigns declaration allowed ("delattr", .ofStrings texts)
  | clear {spec : AttributeSpec} (hspec : spec ∈ declaration.attributes)
      (hidentity : spec.identity = false) : Assigns declaration allowed (spec.name, .null)
  | set {spec : AttributeSpec} {scalars : List Scalar} (value : Json)
      (hspec : spec ∈ declaration.attributes) (hidentity : spec.identity = false)
      (hvalue : asList (unwrap value) = .arr (scalars.map Scalar.toJson))
      (hscalars : spec.Stocks (allowed spec.name) scalars) :
    Assigns declaration allowed (spec.name, value)

theorem splitFirst_assignment {key : String} (hkey : '=' ∉ key.toList) (text : String) :
    Text.splitFirst '=' (key ++ "=" ++ text) = some (key, text) :=
  Text.splitFirst_eq_some_iff.2 ⟨rfl, hkey⟩

theorem text_str (s : String) : text (.str s) = s := rfl

theorem preserves_additions (regular : declaration.Regular) {texts : List String}
    (htexts : ∀ text ∈ texts, ∃ spec ∈ declaration.attributes, spec.isList = true ∧
      ∃ s, text = spec.responseKey ++ "=" ++ s ∧ spec.Keeps (.str s) ∧ allowed spec.name (.str s))
    {before after : Dict Json}
    (h : (texts.map Json.str).foldlM (applyAssignment "addattr") before = .ok after) :
    Preserves declaration allowed before after := by
  refine foldlM_keeps .refl .trans (fun value hvalue attrs next hnext ↦ ?_) h
  obtain ⟨_, htext, rfl⟩ := List.mem_map.1 hvalue
  obtain ⟨spec, hspec, hlist, s, rfl, hkeeps, hallowed⟩ := htexts _ htext
  rw [applyAssignment, text_str, splitFirst_assignment (regular.keys_plain spec hspec)] at hnext
  have hcarries : Carries declaration allowed spec (.str s) [.str s] :=
    ⟨hspec, hlist, rfl, by simp, by simpa using ⟨hkeeps, hallowed⟩⟩
  cases Except.ok.inj hnext
  exact preserves_push regular hcarries

theorem preserves_removals (regular : declaration.Regular) {texts : List String}
    (htexts : ∀ text ∈ texts, ∃ spec ∈ declaration.attributes, spec.isList = true ∧
      ∃ s, text = spec.responseKey ++ "=" ++ s) {before after : Dict Json}
    (h : (texts.map Json.str).foldlM (applyAssignment "delattr") before = .ok after) :
    Preserves declaration allowed before after := by
  refine foldlM_keeps .refl .trans (fun value hvalue attrs next hnext ↦ ?_) h
  obtain ⟨_, htext, rfl⟩ := List.mem_map.1 hvalue
  obtain ⟨spec, hspec, hlist, s, rfl⟩ := htexts _ htext
  rw [applyAssignment, text_str, splitFirst_assignment (regular.keys_plain spec hspec)] at hnext
  simp only [String.reduceEq, if_false, if_true] at hnext
  split at hnext
  · simp at hnext
  · cases Except.ok.inj hnext
    exact preserves_drop regular hspec hlist (.str s)

theorem preserves_applyOption (regular : declaration.Regular) {option : String × Json}
    (hoption : Assigns declaration allowed option) {after : Dict Json}
    (h : applyOption declaration attrs option = .ok after) :
    Preserves declaration allowed attrs after := by
  cases hoption with
  | control value hname =>
    rw [applyOption, if_pos hname] at h
    cases Except.ok.inj h
    exact .refl _
  | add htexts => exact preserves_additions regular htexts h
  | drop htexts => exact preserves_removals regular htexts h
  | @clear spec hspec hidentity =>
    have hfree := regular.names_free spec hspec
    rw [List.mem_append, not_or] at hfree
    rw [applyOption, if_neg hfree.1, if_neg hfree.2, regular.attribute?_of_mem hspec] at h
    cases Except.ok.inj h
    exact preserves_erase regular hspec hidentity
  | @set spec scalars value hspec hidentity hvalue hscalars =>
    have hfree := regular.names_free spec hspec
    rw [List.mem_append, not_or] at hfree
    rw [applyOption, if_neg hfree.1, if_neg hfree.2, regular.attribute?_of_mem hspec] at h
    simp only [hvalue] at h
    split at h
    · cases Except.ok.inj h
      exact preserves_erase regular hspec hidentity
    · cases Except.ok.inj h
      exact preserves_insert regular hspec hidentity hscalars

theorem preserves_applyOptions (regular : declaration.Regular) {item : Dict Json}
    (hitem : ∀ option ∈ item.entries, Assigns declaration allowed option) {after : Dict Json}
    (h : applyOptions declaration attrs item = .ok after) :
    Preserves declaration allowed attrs after :=
  foldlM_keeps .refl .trans
    (fun option hoption _ _ ↦ preserves_applyOption regular (hitem option hoption)) h

theorem preserves_changeLists
    {change : Dict Json → String → Json → Dict Json} {arguments : Arguments} {length : Nat}
    {specs : List AttributeSpec}
    (hchange : ∀ spec ∈ specs, ∀ raw, routedValues? arguments length spec = some raw →
      ∀ attrs, Preserves declaration allowed attrs (change attrs spec.responseKey raw))
    (attrs : Dict Json) :
    Preserves declaration allowed attrs (changeLists change arguments length specs attrs).1 := by
  unfold changeLists
  generalize 0 = completed
  induction specs generalizing attrs completed with
  | nil => exact .refl _
  | cons head rest ih =>
    rw [List.foldl_cons]
    have hrest := ih fun spec hspec ↦ hchange spec (List.mem_cons_of_mem _ hspec)
    cases hvalues : routedValues? arguments length head with
    | none => exact hrest attrs completed
    | some raw => exact (hchange head List.mem_cons_self raw hvalues attrs).trans (hrest _ _)

end Operation

namespace Entry

open Declaration

/-- An entry that carries its identity and whose attributes are sound. -/
structure Sound (declaration : Declaration) (allowed : String → Scalar → Prop) (entry : Entry) :
    Prop where
  length_eq : entry.identity.length = declaration.identityAttributes.length
  signed : ∀ pair ∈ declaration.identityAttributes.zip entry.identity,
    entry.attrs.get? pair.1.responseKey = some (.arr [.str pair.2])
  stored : Stored.Sound declaration allowed entry.attrs

variable {declaration : Declaration} {allowed : String → Scalar → Prop}

theorem Sound.mono {entry : Entry} {wider : String → Scalar → Prop}
    (hsound : entry.Sound declaration allowed) (h : ∀ name v, allowed name v → wider name v) :
    entry.Sound declaration wider where
  length_eq := hsound.length_eq
  signed := hsound.signed
  stored key value hget := by
    obtain ⟨spec, hspec, hkey, scalars, hvalue, hstocks⟩ := hsound.stored key value hget
    exact ⟨spec, hspec, hkey, scalars, hvalue, hstocks.nonempty, hstocks.keeps,
      fun hlist v hv ↦ h _ _ (hstocks.allowed hlist v hv), hstocks.nodup, hstocks.short⟩

theorem Sound.withAttrs {entry : Entry} {attrs : Dict Json}
    (hsound : entry.Sound declaration allowed)
    (hattrs : Stored.Preserves declaration allowed entry.attrs attrs) :
    ({ entry with attrs := attrs } : Entry).Sound declaration allowed where
  length_eq := hsound.length_eq
  signed pair hpair := by
    obtain ⟨hspec, hidentity⟩ := mem_identityAttributes.1 (List.of_mem_zip hpair).1
    rw [hattrs.2 pair.1 hspec hidentity]
    exact hsound.signed pair hpair
  stored := hattrs.1 hsound.stored

/-- An entry with nothing but its identity is sound. -/
theorem sound_named (regular : declaration.Regular) {identity : List String}
    (hlength : identity.length = declaration.identityAttributes.length) :
    (named declaration identity).Sound declaration allowed := by
  have hkeys : ((declaration.identityAttributes.zip identity).map
      (·.1.responseKey)).Nodup := by
    have hfst : (declaration.identityAttributes.zip identity).map Prod.fst =
        declaration.identityAttributes := List.map_fst_zip (Nat.le_of_eq hlength.symm)
    have hmap : (declaration.identityAttributes.zip identity).map (·.1.responseKey) =
        declaration.identityAttributes.map (·.responseKey) := by
      conv_rhs => rw [← hfst, List.map_map]
      rfl
    rw [hmap]
    exact regular.keys_nodup.sublist (List.filter_sublist.map _)
  have hnodup : (((declaration.identityAttributes.zip identity).map fun pair ↦
      (pair.1.responseKey, Json.arr [.str pair.2])).map Prod.fst).Nodup := by
    rw [List.map_map]
    exact hkeys
  constructor
  · exact hlength
  · intro pair hpair
    refine (Dict.get?_ofList hnodup _).trans (Dict.lookupEntry_of_mem hnodup ?_)
    exact List.mem_map.2 ⟨pair, hpair, rfl⟩
  · intro key value hget
    have hmem := Dict.mem_of_lookupEntry ((Dict.get?_ofList hnodup key).symm.trans hget)
    obtain ⟨⟨spec, text⟩, hpair, heq⟩ := List.mem_map.1 hmem
    obtain ⟨rfl, rfl⟩ := Prod.mk.inj heq
    obtain ⟨hspec, hidentity⟩ := mem_identityAttributes.1 (List.of_mem_zip hpair).1
    have hlist : spec.isList = false := by
      simp [AttributeSpec.isList, (regular.identity_text spec hspec hidentity).1]
    refine ⟨spec, hspec, rfl, [.str text], rfl, by simp, ?_, by simp [hlist], by simp, by simp⟩
    intro v hv
    rw [List.mem_singleton.1 hv]
    exact regular.keeps_identity hspec hidentity text

end Entry

namespace Operation

open Stored Entry

variable {declaration : Declaration} {allowed : String → Scalar → Prop} {arguments : Arguments}
  {identity : List String}

/-- The arguments of a call that give attributes only values they may hold. -/
def Writes (declaration : Declaration) (allowed : String → Scalar → Prop) (arguments : Arguments) :
    Operation → Prop
  | .add | .modify => ∀ option ∈ arguments.item.entries, Assigns declaration allowed option
  | .listAdd specs => ∀ spec ∈ specs, ∀ raw,
    routedValues? arguments declaration.identityAttributes.length spec = some raw →
      ∃ values, Carries declaration allowed spec raw values
  | .listRemove specs => ∀ spec ∈ specs, spec ∈ declaration.attributes ∧ spec.isList = true
  | .find | .remove | .setEnabled _ => True

theorem preserves_withFlag (regular : declaration.Regular) {flag : EnableSpec}
    (hflag : declaration.enable = some flag) (enabled : Bool) (attrs : Dict Json) :
    Preserves declaration allowed attrs (withFlag declaration flag enabled attrs) := by
  obtain ⟨spec, hspec, hname, hscalar, hkind, hidentity, hplain, hnormalizer, -⟩ :=
    regular.flag_declared flag hflag
  have hkey : flagKey declaration flag = spec.responseKey :=
    flagKey_eq (regular.attribute?_eq_some_iff.2 ⟨hspec, hname⟩)
  have hread (b : Bool) : spec.normalizeElement (Scalar.bool b).toJson = .ok (.bool b) := by
    unfold AttributeSpec.normalizeElement
    rw [Option.isNone_iff_eq_none.1 hnormalizer, hkind]
    rfl
  have hkeeps (b : Bool) : spec.Keeps (.bool b) :=
    (regular.paired spec hspec).keeps (hread b) (by simp)
  have hstocks : spec.Stocks (allowed spec.name) [.bool (flag.storedValue enabled)] :=
    ⟨by simp, by simpa using hkeeps _, by simp [hscalar], by simp, by simp⟩
  unfold withFlag
  rw [hkey]
  exact preserves_insert regular hspec hidentity hstocks

/-- Values that a call adds to lists go into sound attributes. -/
theorem preserves_pushed (regular : declaration.Regular) {specs : List AttributeSpec}
    (hlength : identity.length = declaration.identityAttributes.length)
    (hwrites : Writes declaration allowed arguments (.listAdd specs)) (attrs : Dict Json) :
    Preserves declaration allowed attrs
      (changeLists pushValues arguments identity.length specs attrs).1 := by
  apply preserves_changeLists
  intro spec hspec raw hraw before
  obtain ⟨values, hcarries⟩ := hwrites spec hspec raw (hlength ▸ hraw)
  exact preserves_push regular hcarries

theorem preserves_dropped (regular : declaration.Regular) {specs : List AttributeSpec}
    (hwrites : Writes declaration allowed arguments (.listRemove specs)) (length : Nat)
    (attrs : Dict Json) :
    Preserves declaration allowed attrs
      (changeLists dropValues arguments length specs attrs).1 := by
  apply preserves_changeLists
  intro spec hspec raw _ before
  obtain ⟨hmem, hlist⟩ := hwrites spec hspec
  exact preserves_drop regular hmem hlist raw

/-- The entry that an operation leaves when it is carried out on one sound entry, or on none. -/
theorem Leaves.sound (regular : declaration.Regular) {operation : Operation}
    (hlength : identity.length = declaration.identityAttributes.length)
    (hwrites : Writes declaration allowed arguments operation) {held held' : Option Entry}
    (hnamed : NamedBy identity held) (hheld : ∀ entry ∈ held, entry.Sound declaration allowed)
    {result : Json} (h : Leaves declaration identity arguments operation held result held') :
    NamedBy identity held' ∧ ∀ entry ∈ held', entry.Sound declaration allowed := by
  refine h.keeps hnamed hheld (sound_named regular hlength) ?apply ?flag ?push ?drop
  case apply =>
    rintro (rfl | rfl) entry attrs hsound happlied
    all_goals exact hsound.withAttrs (preserves_applyOptions regular hwrites happlied)
  case flag =>
    intro flag henable enabled entry hsound
    exact hsound.withAttrs (preserves_withFlag regular henable enabled entry.attrs)
  case push =>
    rintro specs rfl entry hsound
    exact hsound.withAttrs (preserves_pushed regular hlength hwrites entry.attrs)
  case drop =>
    rintro specs rfl entry hsound
    exact hsound.withAttrs (preserves_dropped regular hwrites _ entry.attrs)

theorem perform_sound (regular : declaration.Regular) {operation : Operation}
    (hfind : operation ≠ .find) (hid : identityOf declaration arguments.positional = .ok identity)
    (hwrites : Writes declaration allowed arguments operation) {held : Option Entry}
    (hnamed : NamedBy identity held) (hheld : ∀ entry ∈ held, entry.Sound declaration allowed)
    {done : Json × List Entry}
    (h : operation.perform declaration held.toList arguments = .ok done) :
    NamedBy identity done.2.head? ∧ ∀ entry ∈ done.2.head?, entry.Sound declaration allowed :=
  (leaves_of_perform hfind hid hnamed h).sound regular (length_of_identityOf hid) hwrites hnamed hheld

end Operation

end DirectoryReconcile
