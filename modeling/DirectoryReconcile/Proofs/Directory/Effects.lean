import DirectoryReconcile.Proofs.Directory.Sound

/-!
# What operations do to stored scalars

Which values an attribute holds, in one spelling or another, after values were pushed and dropped,
options applied and lists changed. Two spellings of one value count as the same, so a scalar as it
is spelled can be followed only through lists that tell the spellings of their values apart.
-/

namespace DirectoryReconcile

/-- Among the values that lists may hold none is another spelling of another. -/
def Distinguishes (allowed : String → Scalar → Prop) : Prop :=
  ∀ name v w, allowed name v → allowed name w → v.sameName w = true → v = w

/-- A property that singles out one of the values that a list may hold, in all its spellings. -/
structure Picks (allowed : String → Scalar → Prop) (name : String) (p : Scalar → Prop) : Prop where
  congr : ∀ v w, allowed name v → allowed name w → v.sameName w = true → (p v ↔ p w)
  unique : ∀ v w, p v → p w → v.sameName w = true

/-- What holds after something was added to what held before, or removed from it. -/
def Moved (adding : Bool) (before change : Prop) : Prop :=
  if adding then before ∨ change else before ∧ ¬change

theorem moved_moved (adding : Bool) (before first second : Prop) :
    Moved adding (Moved adding before first) second ↔ Moved adding before (first ∨ second) := by
  cases adding <;> simp only [Moved, if_true, Bool.false_eq_true, if_false] <;> tauto

theorem moved_congr {adding : Bool} {before before' change change' : Prop} (h : before ↔ before')
    (h' : change ↔ change') : Moved adding before change ↔ Moved adding before' change' := by
  rw [propext h, propext h']

theorem moved_false (adding : Bool) (before : Prop) : Moved adding before False ↔ before := by
  cases adding <;> simp [Moved]

namespace Scalar

theorem sameName_refl (v : Scalar) : v.sameName v = true := by
  cases v <;> simp [sameName, Text.sameIgnoringCase_refl]

theorem sameName_symm {v w : Scalar} (h : v.sameName w = true) : w.sameName v = true := by
  cases v <;> cases w <;> simp_all [sameName, Text.sameIgnoringCase_symm]

theorem sameName_trans {u v w : Scalar} (huv : u.sameName v = true) (hvw : v.sameName w = true) :
    u.sameName w = true := by
  cases u <;> cases v <;> cases w <;> simp_all [sameName]
  exact Text.sameIgnoringCase_trans huv hvw

section

variable {p : Scalar → Prop} {values stored : List Scalar}
  (congr : ∀ a ∈ stored ++ values, ∀ b ∈ values, sameStored a b = true → (p a ↔ p b))

include congr

theorem exists_mem_foldl_push_iff :
    (∃ v ∈ values.foldl push stored, p v) ↔ (∃ v ∈ stored, p v) ∨ ∃ v ∈ values, p v := by
  constructor
  · rintro ⟨v, hv, hp⟩
    exact (mem_of_mem_foldl_push hv).imp (⟨v, ·, hp⟩) (⟨v, ·, hp⟩)
  · rintro (⟨v, hv, hp⟩ | ⟨v, hv, hp⟩)
    · exact ⟨v, subset_foldl_push hv, hp⟩
    · obtain ⟨w, hw, hsame⟩ := exists_mem_foldl_push stored hv
      exact ⟨w, hw, (congr w (List.mem_append.2 (mem_of_mem_foldl_push hw)) v hv hsame).2 hp⟩

theorem exists_mem_without_iff
    (unique : ∀ a ∈ stored, ∀ b ∈ values, p a → p b → sameStored a b = true) :
    (∃ v ∈ without values stored, p v) ↔ (∃ v ∈ stored, p v) ∧ ¬∃ v ∈ values, p v := by
  constructor
  · rintro ⟨v, hv, hp⟩
    obtain ⟨hstored, hnot⟩ := mem_without.1 hv
    refine ⟨⟨v, hstored, hp⟩, ?_⟩
    rintro ⟨w, hw, hp'⟩
    exact Bool.false_ne_true ((hnot w hw).symm.trans (unique v hstored w hw hp hp'))
  · rintro ⟨⟨v, hstored, hp⟩, hnone⟩
    refine ⟨v, mem_without.2 ⟨hstored, fun w hw ↦ ?_⟩, hp⟩
    rw [← Bool.not_eq_true]
    intro hsame
    exact hnone ⟨w, hw, (congr v (List.mem_append_left _ hstored) w hw hsame).1 hp⟩

end

end Scalar

/-- Where no value has two spellings, a scalar is a value. -/
theorem Distinguishes.picks_eq {allowed : String → Scalar → Prop} (h : Distinguishes allowed)
    (name : String) (v : Scalar) : Picks allowed name (· = v) where
  congr a b ha hb hsame := by rw [h name a b ha hb hsame]
  unique := by
    rintro _ _ rfl rfl
    exact Scalar.sameName_refl _

/-- A value is all that is the same but for its spelling. -/
theorem picks_sameName (allowed : String → Scalar → Prop) (name : String) (v : Scalar) :
    Picks allowed name fun w ↦ w.sameName v = true where
  congr _ _ _ _ hsame :=
    ⟨fun h ↦ Scalar.sameName_trans (Scalar.sameName_symm hsame) h, fun h ↦ Scalar.sameName_trans hsame h⟩
  unique _ _ h h' := Scalar.sameName_trans h (Scalar.sameName_symm h')

namespace Stored

variable {declaration : Declaration} {allowed : String → Scalar → Prop} {attrs : Dict Json}
  {spec other : AttributeSpec} {raw : Json} {values : List Scalar} {p : Scalar → Prop}

/-- Adds values to a key or removes them. -/
def shift (adding : Bool) (attrs : Dict Json) (key : String) (values : Json) : Dict Json :=
  if adding then pushValues attrs key values else dropValues attrs key values

theorem preserves_shift (regular : declaration.Regular) (adding : Bool)
    (hcarries : Carries declaration allowed spec raw values) (attrs : Dict Json) :
    Preserves declaration allowed attrs (shift adding attrs spec.responseKey raw) := by
  cases adding
  · exact preserves_drop regular hcarries.mem hcarries.isList raw
  · exact preserves_push regular hcarries

theorem scalars_insert_self (attrs : Dict Json) (spec : AttributeSpec) (values : List Scalar) :
    scalars (attrs.insert spec.responseKey (.arr (values.map Scalar.toJson))) spec = values :=
  scalars_of_get? (Dict.get?_insert_self _ _ _)

theorem scalars_congr {attrs' : Dict Json}
    (h : attrs'.get? spec.responseKey = attrs.get? spec.responseKey) :
    scalars attrs' spec = scalars attrs spec := by
  rw [scalars, scalars, valuesOf, valuesOf, h]

theorem scalars_erase_self (attrs : Dict Json) (spec : AttributeSpec) :
    scalars (attrs.erase spec.responseKey) spec = [] :=
  scalars_of_none (by rw [Dict.get?_erase, if_pos rfl])

variable (regular : declaration.Regular)

include regular

/-- Other attributes keep their scalars. -/
theorem scalars_shift_of_ne (adding : Bool) (hspec : spec ∈ declaration.attributes)
    (hother : other ∈ declaration.attributes) (hne : other ≠ spec) (raw : Json) :
    scalars (shift adding attrs spec.responseKey raw) other = scalars attrs other := by
  have hkey : spec.responseKey ≠ other.responseKey := fun h ↦
    hne (regular.eq_of_responseKey_eq hspec hother h).symm
  apply scalars_congr
  cases adding with
  | true =>
    unfold shift
    rw [if_pos rfl, pushValues, Dict.get?_insert, if_neg hkey]
  | false =>
    unfold shift
    rw [if_neg Bool.false_ne_true, dropValues]
    split
    · split
      · rw [Dict.get?_erase, if_neg hkey]
      · rw [Dict.get?_insert, if_neg hkey]
    · rfl

/-- In a list of texts the values that count as the same are those with the same name. -/
theorem sameStored_iff (hspec : spec ∈ declaration.attributes) (hlist : spec.isList = true)
    {a b : Scalar} (ha : spec.Keeps a) (hb : spec.Keeps b) :
    Scalar.sameStored a b = true ↔ a.sameName b = true := by
  obtain ⟨hkind, -⟩ := regular.list_text spec hspec hlist
  obtain ⟨s, rfl⟩ := ha.exists_str hkind
  obtain ⟨t, rfl⟩ := hb.exists_str hkind
  rw [Scalar.sameStored_str]

theorem Sound.held (hsound : Sound declaration allowed attrs) (hspec : spec ∈ declaration.attributes)
    (hlist : spec.isList = true) {v : Scalar} (hv : v ∈ scalars attrs spec) :
    spec.Keeps v ∧ allowed spec.name v := by
  have hstocks := hsound.stocks regular hspec (List.ne_nil_of_mem hv)
  exact ⟨hstocks.keeps v hv, hstocks.allowed hlist v hv⟩

/-- What a list holds after values were pushed or dropped. -/
theorem scalars_shift_self (adding : Bool) (hsound : Sound declaration allowed attrs)
    (hcarries : Carries declaration allowed spec raw values) :
    scalars (shift adding attrs spec.responseKey raw) spec =
      if adding then values.foldl Scalar.push (scalars attrs spec)
      else Scalar.without values (scalars attrs spec) := by
  cases adding with
  | true =>
    rw [shift, if_pos rfl, get?_pushValues regular hsound hcarries.mem hcarries.elements,
      scalars_insert_self]
    rfl
  | false =>
    unfold shift
    rw [if_neg Bool.false_ne_true, dropValues, if_neg Bool.false_ne_true]
    rcases hsound.get?_cases regular hcarries.mem with hnone | ⟨stored, hget, -⟩
    · rw [hnone, scalars_of_none hnone]
      rfl
    · rw [hget]
      simp only [without_map hcarries.elements, scalars_of_get? hget, List.isEmpty_map]
      split
      next hempty => rw [scalars_erase_self, List.isEmpty_iff.1 hempty]
      next => rw [scalars_insert_self]

theorem exists_scalars_shift_self (hpicks : Picks allowed spec.name p) (adding : Bool)
    (hsound : Sound declaration allowed attrs)
    (hcarries : Carries declaration allowed spec raw values) :
    (∃ v ∈ scalars (shift adding attrs spec.responseKey raw) spec, p v) ↔
      Moved adding (∃ v ∈ scalars attrs spec, p v) (∃ v ∈ values, p v) := by
  have hspec := hcarries.mem
  have hlist := hcarries.isList
  have hheld : ∀ v ∈ scalars attrs spec ++ values, spec.Keeps v ∧ allowed spec.name v := by
    intro v hv
    exact (List.mem_append.1 hv).elim (hsound.held regular hspec hlist) (hcarries.keeps v)
  have hsame : ∀ a ∈ scalars attrs spec ++ values, ∀ b ∈ values,
      (Scalar.sameStored a b = true ↔ a.sameName b = true) := fun a ha b hb ↦
    sameStored_iff regular hspec hlist (hheld a ha).1 (hcarries.keeps b hb).1
  have hcongr : ∀ a ∈ scalars attrs spec ++ values, ∀ b ∈ values,
      Scalar.sameStored a b = true → (p a ↔ p b) := fun a ha b hb h ↦
    hpicks.congr a b (hheld a ha).2 (hcarries.keeps b hb).2 ((hsame a ha b hb).1 h)
  rw [scalars_shift_self regular adding hsound hcarries]
  cases adding with
  | true => exact Scalar.exists_mem_foldl_push_iff hcongr
  | false => exact Scalar.exists_mem_without_iff hcongr fun a ha b hb hpa hpb ↦
      (hsame a (List.mem_append_left _ ha) b hb).2 (hpicks.unique a b hpa hpb)

theorem exists_scalars_shift (hpicks : Picks allowed other.name p) (adding : Bool)
    (hsound : Sound declaration allowed attrs)
    (hcarries : Carries declaration allowed spec raw values)
    (hother : other ∈ declaration.attributes) :
    (∃ v ∈ scalars (shift adding attrs spec.responseKey raw) other, p v) ↔
      Moved adding (∃ v ∈ scalars attrs other, p v) (other = spec ∧ ∃ v ∈ values, p v) := by
  by_cases heq : other = spec
  · subst heq
    rw [exists_scalars_shift_self regular hpicks adding hsound hcarries]
    simp
  · rw [scalars_shift_of_ne regular adding hcarries.mem hother heq]
    simp [heq, moved_false]

end Stored

namespace Operation

open Stored

variable {declaration : Declaration} {allowed : String → Scalar → Prop} {attrs after : Dict Json}
  {spec other : AttributeSpec} {p : Scalar → Prop} (regular : declaration.Regular)

include regular

/-! ## Assignments of list values -/

theorem assignment_inj (hspec : spec ∈ declaration.attributes) (hother : other ∈ declaration.attributes)
    {s t : String} : other.responseKey ++ "=" ++ t = spec.responseKey ++ "=" ++ s ↔
      other = spec ∧ t = s := by
  constructor
  · intro h
    have hsplit := splitFirst_assignment (regular.keys_plain other hother) t
    rw [h, splitFirst_assignment (regular.keys_plain spec hspec) s] at hsplit
    obtain ⟨hkey, htext⟩ := Prod.mk.inj (Option.some.inj hsplit)
    exact ⟨(regular.eq_of_responseKey_eq hspec hother hkey).symm, htext.symm⟩
  · rintro ⟨rfl, rfl⟩
    rfl

/-- An assignment that is carried out adds or removes one value. -/
theorem applyAssignment_eq_ok {adding : Bool} (hspec : spec ∈ declaration.attributes) {s : String}
    (h : applyAssignment (if adding then "addattr" else "delattr") attrs
      (.str (spec.responseKey ++ "=" ++ s)) = .ok after) :
    after = shift adding attrs spec.responseKey (.str s) := by
  rw [applyAssignment, text_str, splitFirst_assignment (regular.keys_plain spec hspec)] at h
  cases adding with
  | true => exact (Except.ok.inj h).symm
  | false =>
    simp only [Bool.false_eq_true, if_false, String.reduceEq, if_true] at h
    split at h
    · simp at h
    · exact (Except.ok.inj h).symm

theorem exists_scalars_assignments (hpicks : Picks allowed other.name p) {adding : Bool}
    {texts : List String} (htexts : ∀ text ∈ texts, ∃ spec ∈ declaration.attributes,
      spec.isList = true ∧ ∃ s, text = spec.responseKey ++ "=" ++ s ∧ spec.Keeps (.str s) ∧
        allowed spec.name (.str s))
    (hsound : Sound declaration allowed attrs)
    (h : (texts.map Json.str).foldlM
      (applyAssignment (if adding then "addattr" else "delattr")) attrs = .ok after)
    (hother : other ∈ declaration.attributes) :
    (∃ v ∈ scalars after other, p v) ↔ Moved adding (∃ v ∈ scalars attrs other, p v)
      (∃ s, p (.str s) ∧ other.responseKey ++ "=" ++ s ∈ texts) := by
  induction texts generalizing attrs with
  | nil =>
    cases Except.ok.inj h
    simp [moved_false]
  | cons text rest ih =>
    obtain ⟨spec, hspec, hlist, s, rfl, hkeeps, hallowed⟩ := htexts text List.mem_cons_self
    rw [List.map_cons, List.foldlM_cons] at h
    obtain ⟨next, hnext, h⟩ := bind_eq_ok.1 h
    obtain rfl := applyAssignment_eq_ok regular hspec hnext
    have hcarries : Carries declaration allowed spec (.str s) [.str s] :=
      ⟨hspec, hlist, rfl, by simp, by simpa using ⟨hkeeps, hallowed⟩⟩
    have hrest := ih (fun text htext ↦ htexts text (List.mem_cons_of_mem _ htext))
      ((preserves_shift regular adding hcarries attrs).1 hsound) h
    have hhead : (∃ v ∈ scalars (shift adding attrs spec.responseKey (.str s)) other, p v) ↔
        Moved adding (∃ v ∈ scalars attrs other, p v) (other = spec ∧ ∃ v ∈ [.str s], p v) :=
      exists_scalars_shift regular hpicks adding hsound hcarries hother
    calc (∃ v ∈ scalars after other, p v)
      _ ↔ Moved adding (∃ v ∈ scalars (shift adding attrs spec.responseKey (.str s)) other, p v)
          (∃ t, p (.str t) ∧ other.responseKey ++ "=" ++ t ∈ rest) := hrest
      _ ↔ Moved adding (Moved adding (∃ v ∈ scalars attrs other, p v)
            (other = spec ∧ ∃ v ∈ [.str s], p v))
          (∃ t, p (.str t) ∧ other.responseKey ++ "=" ++ t ∈ rest) := moved_congr hhead Iff.rfl
      _ ↔ Moved adding (∃ v ∈ scalars attrs other, p v) ((other = spec ∧ ∃ v ∈ [.str s], p v) ∨
          ∃ t, p (.str t) ∧ other.responseKey ++ "=" ++ t ∈ rest) := moved_moved _ _ _ _
      _ ↔ Moved adding (∃ v ∈ scalars attrs other, p v) (∃ t, p (.str t) ∧
          other.responseKey ++ "=" ++ t ∈ (spec.responseKey ++ "=" ++ s) :: rest) := by
        apply moved_congr Iff.rfl
        simp only [List.mem_cons, assignment_inj regular hspec hother, List.not_mem_nil, or_false]
        grind

/-! ## Options that set attributes -/

theorem get?_foldlM_applyOption {options : List (String × Json)}
    (hnodup : (options.map (·.1)).Nodup)
    (hoptions : ∀ option ∈ options,
      option.1 ∈ controlKeys ∨ ∃ spec ∈ declaration.attributes, spec.name = option.1)
    (h : options.foldlM (applyOption declaration) attrs = .ok after)
    (hspec : spec ∈ declaration.attributes) :
    after.get? spec.responseKey =
      match Dict.lookupEntry spec.name options with
      | none => attrs.get? spec.responseKey
      | some value =>
        if (unwrap value).isNull then none else some (asList (unwrap value)) := by
  have hfree (spec : AttributeSpec) (hspec : spec ∈ declaration.attributes) :
      spec.name ∉ controlKeys ∧ spec.name ∉ ["addattr", "delattr", "setattr"] := by
    simpa [not_or] using regular.names_free spec hspec
  induction options generalizing attrs with
  | nil =>
    cases Except.ok.inj h
    rfl
  | cons head rest ih =>
    obtain ⟨name, value⟩ := head
    obtain ⟨hhead, hrest⟩ := List.nodup_cons.1 hnodup
    rw [List.foldlM_cons] at h
    obtain ⟨next, hnext, h⟩ := bind_eq_ok.1 h
    rw [ih hrest (fun option hoption ↦ hoptions option (List.mem_cons_of_mem _ hoption)) h,
      Dict.lookupEntry]
    rcases hoptions _ List.mem_cons_self with hcontrol | ⟨other, hother, rfl⟩
    · have hne : name ≠ spec.name := fun heq ↦ (hfree spec hspec).1 (heq ▸ hcontrol)
      rw [applyOption, if_pos hcontrol] at hnext
      cases Except.ok.inj hnext
      rw [if_neg hne]
    · have hset : next.get? spec.responseKey =
          if other.responseKey = spec.responseKey then
            if (unwrap value).isNull then none else some (asList (unwrap value))
          else attrs.get? spec.responseKey := by
        rw [applyOption, if_neg (hfree other hother).1, if_neg (hfree other hother).2,
          regular.attribute?_of_mem hother] at hnext
        simp only at hnext
        split at hnext
        next hnull => cases Except.ok.inj hnext; rw [Dict.get?_erase]; simp [hnull]
        next hnull => cases Except.ok.inj hnext; rw [Dict.get?_insert]; simp [hnull]
      by_cases heq : other = spec
      · subst heq
        have hnone : Dict.lookupEntry other.name rest = none := by
          by_contra hsome
          exact hhead (Dict.lookupEntry_isSome_iff.1 (Option.isSome_iff_ne_none.2 hsome))
        simp only [hnone, hset, if_true]
      · have hname : other.name ≠ spec.name := fun h ↦
          heq (regular.eq_of_name_eq hother hspec h)
        have hkey : other.responseKey ≠ spec.responseKey := fun h ↦
          heq (regular.eq_of_responseKey_eq hother hspec h)
        rw [if_neg hname, hset, if_neg hkey]

/-! ## Routed lists -/

theorem exists_scalars_changeLists (hpicks : Picks allowed other.name p) (adding : Bool)
    {arguments : Arguments} {length : Nat} {specs : List AttributeSpec}
    (hcarries : ∀ spec ∈ specs, ∀ raw, routedValues? arguments length spec = some raw →
      ∃ values, Carries declaration allowed spec raw values)
    (hsound : Sound declaration allowed attrs) (hother : other ∈ declaration.attributes) :
    (∃ v ∈ scalars (changeLists (shift adding) arguments length specs attrs).1 other, p v) ↔
      Moved adding (∃ v ∈ scalars attrs other, p v) (other ∈ specs ∧
        ∃ raw, routedValues? arguments length other = some raw ∧
          ∃ v : Scalar, v.toJson ∈ AttributeSpec.elements raw ∧ p v) := by
  unfold changeLists
  generalize 0 = completed
  induction specs generalizing attrs completed with
  | nil => simp [moved_false]
  | cons head rest ih =>
    have hrest := fun spec hspec ↦ hcarries spec (List.mem_cons_of_mem _ hspec)
    rw [List.foldl_cons]
    cases hvalues : routedValues? arguments length head with
    | none =>
      rw [ih hrest hsound]
      apply moved_congr Iff.rfl
      apply and_congr_left
      rintro ⟨raw, hraw, -⟩
      have hne : other ≠ head := by
        rintro rfl
        simp [hvalues] at hraw
      simp [hne]
    | some raw =>
      obtain ⟨values, hhead⟩ := hcarries head List.mem_cons_self raw hvalues
      have hmem (v : Scalar) : v.toJson ∈ AttributeSpec.elements raw ↔ v ∈ values := by
        rw [hhead.elements, List.mem_map_of_injective Scalar.toJson_injective]
      rw [ih hrest ((preserves_shift regular adding hhead attrs).1 hsound),
        moved_congr (exists_scalars_shift regular hpicks adding hsound hhead hother) Iff.rfl,
        moved_moved]
      apply moved_congr Iff.rfl
      rw [List.mem_cons]
      grind

end Operation

end DirectoryReconcile
