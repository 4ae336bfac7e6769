import DirectoryReconcile.Masking
import Mathlib.Data.List.Forall2

/-!
# What masking hides

Two values have the same masked value exactly if they differ at secret positions only. A masked
value holds the mark at each of its secret positions, and values without secrets stay as they are.
-/

namespace DirectoryReconcile.Masking

/-! ## Secret positions -/

/-- A name that ends with a sensitive one once the letters of ASCII are in lower case. -/
def Sensitive (name : String) : Prop :=
  ∃ sensitive ∈ sensitiveNames, ∃ lead, Text.lowerAscii name = lead ++ sensitive

/-- A text that gives a sensitive name a value: what follows the first equals sign is secret. -/
structure AssignsSecret (s name secret : String) : Prop where
  text : s = name ++ "=" ++ secret
  first : '=' ∉ name.toList
  sensitive : Sensitive name

/-- What stands at the secret positions of a value, at any depth and inside of other secrets too. -/
inductive HoldsSecret : Json → Json → Prop
  | assigned {s name secret : String} (h : AssignsSecret s name secret) :
      HoldsSecret (.str s) (.str secret)
  | field {fields : List (String × Json)} {key : String} {value : Json}
      (hmem : (key, value) ∈ fields) (hkey : Sensitive key) (hvalue : value ≠ .null) :
      HoldsSecret (.obj fields) value
  | inItem {items : List Json} {item secret : Json} (hmem : item ∈ items)
      (h : HoldsSecret item secret) : HoldsSecret (.arr items) secret
  | inField {fields : List (String × Json)} {key : String} {value secret : Json}
      (hmem : (key, value) ∈ fields) (h : HoldsSecret value secret) :
      HoldsSecret (.obj fields) secret

/-- Two fields with one key that hold a secret each, or values that are related. -/
inductive FieldsMatch (R : Json → Json → Prop) : String × Json → String × Json → Prop
  | secret {key : String} {value other : Json} (hkey : Sensitive key) (hvalue : value ≠ .null)
      (hother : other ≠ .null) : FieldsMatch R (key, value) (key, other)
  | inside {key : String} {value other : Json} (h : R value other) :
      FieldsMatch R (key, value) (key, other)

/-- Two values that differ only in what stands at their secret positions. -/
inductive OnlySecretsDiffer : Json → Json → Prop
  | refl (value : Json) : OnlySecretsDiffer value value
  | assigned {s t name secret other : String} (hs : AssignsSecret s name secret)
      (ht : AssignsSecret t name other) : OnlySecretsDiffer (.str s) (.str t)
  | arr {items others : List Json} (h : List.Forall₂ OnlySecretsDiffer items others) :
      OnlySecretsDiffer (.arr items) (.arr others)
  | obj {fields others : List (String × Json)}
      (h : List.Forall₂ (FieldsMatch OnlySecretsDiffer) fields others) :
      OnlySecretsDiffer (.obj fields) (.obj others)

theorem isSensitive_iff {name : String} : isSensitive name = true ↔ Sensitive name := by
  simp only [isSensitive, List.any_eq_true, Text.endsWith_iff, Sensitive]

/-! ## Texts -/

section

variable {s t name secret : String}

theorem AssignsSecret.splitFirst_eq (h : AssignsSecret s name secret) :
    Text.splitFirst '=' s = some (name, secret) :=
  Text.splitFirst_eq_some_iff.2 ⟨h.text, h.first⟩

/-- A text has one name before its first equals sign, and one value after it. -/
theorem AssignsSecret.unique {name' secret' : String} (h : AssignsSecret s name secret)
    (h' : AssignsSecret s name' secret') : name' = name ∧ secret' = secret := by
  have hsplit : some (name', secret') = some (name, secret) :=
    h'.splitFirst_eq.symm.trans h.splitFirst_eq
  exact Prod.mk.inj (Option.some.inj hsplit)

theorem maskAssignment_of_assignsSecret (h : AssignsSecret s name secret) :
    maskAssignment s = name ++ "=" ++ mark := by
  simp only [maskAssignment, h.splitFirst_eq, isSensitive_iff.2 h.sensitive, if_true]

theorem maskAssignment_of_not (h : ¬∃ name secret, AssignsSecret s name secret) :
    maskAssignment s = s := by
  unfold maskAssignment
  split
  next name secret hsplit =>
    obtain ⟨htext, hfirst⟩ := Text.splitFirst_eq_some_iff.1 hsplit
    exact if_neg fun hname ↦ h ⟨name, secret, htext, hfirst, isSensitive_iff.1 hname⟩
  next => rfl

/-- A masked text gives the mark to the name that had a secret. -/
theorem assignsSecret_maskAssignment_iff : AssignsSecret (maskAssignment s) name secret ↔
    secret = mark ∧ ∃ hidden, AssignsSecret s name hidden := by
  by_cases hs : ∃ name hidden, AssignsSecret s name hidden
  · obtain ⟨assigned, hidden, hs⟩ := hs
    have hmasked : AssignsSecret (maskAssignment s) assigned mark :=
      ⟨maskAssignment_of_assignsSecret hs, hs.first, hs.sensitive⟩
    constructor
    · intro h
      obtain ⟨rfl, rfl⟩ := hmasked.unique h
      exact ⟨rfl, hidden, hs⟩
    · rintro ⟨rfl, hidden', hs'⟩
      obtain ⟨rfl, rfl⟩ := hs.unique hs'
      exact hmasked
  · rw [maskAssignment_of_not hs]
    exact iff_of_false (fun h ↦ hs ⟨_, _, h⟩) (fun ⟨_, hidden, h⟩ ↦ hs ⟨_, hidden, h⟩)

theorem maskAssignment_eq_iff : maskAssignment s = maskAssignment t ↔
    s = t ∨ ∃ name secret other, AssignsSecret s name secret ∧ AssignsSecret t name other := by
  constructor
  · intro h
    -- The masked texts are one, so both texts give a secret to the same name or to none.
    have hsame : ∀ name, (∃ secret, AssignsSecret s name secret) ↔
        ∃ other, AssignsSecret t name other := by
      intro name
      have hmasked : AssignsSecret (maskAssignment s) name mark ↔
          AssignsSecret (maskAssignment t) name mark := by rw [h]
      simpa [assignsSecret_maskAssignment_iff] using hmasked
    by_cases hs : ∃ name secret, AssignsSecret s name secret
    · obtain ⟨name, hsecret⟩ := hs
      obtain ⟨other, ht⟩ := (hsame name).1 hsecret
      obtain ⟨secret, hs⟩ := hsecret
      exact .inr ⟨name, secret, other, hs, ht⟩
    · have ht : ¬∃ name other, AssignsSecret t name other :=
        fun ⟨name, hother⟩ ↦ hs ⟨name, (hsame name).2 hother⟩
      rw [maskAssignment_of_not hs, maskAssignment_of_not ht] at h
      exact .inl h
  · rintro (rfl | ⟨name, secret, other, hs, ht⟩)
    · rfl
    · rw [maskAssignment_of_assignsSecret hs, maskAssignment_of_assignsSecret ht]

end

/-! ## Fields, lists and objects -/

section

variable {value : Json} {key : String}

/-- The masked value of a field. -/
def maskValue (key : String) (value : Json) : Json :=
  if isSensitive key && !value.isNull then .str mark else mask value

theorem maskItems_eq_map (items : List Json) : maskItems items = items.map mask := by
  induction items with
  | nil => rfl
  | cons item rest ih => rw [maskItems, ih, List.map_cons]

theorem maskFields_eq_map (fields : List (String × Json)) :
    maskFields fields = fields.map fun field ↦ (field.1, maskValue field.1 field.2) := by
  induction fields with
  | nil => rfl
  | cons field rest ih => rw [maskFields, ih, List.map_cons, maskValue]

theorem isSecret_iff :
    (isSensitive key && !value.isNull) = true ↔ Sensitive key ∧ value ≠ .null := by
  rw [Bool.and_eq_true, Bool.not_eq_true', ← Bool.not_eq_true, isSensitive_iff, Json.isNull_iff]

theorem maskValue_of_secret (hkey : Sensitive key) (hvalue : value ≠ .null) :
    maskValue key value = .str mark := by
  rw [maskValue, if_pos (isSecret_iff.2 ⟨hkey, hvalue⟩)]

theorem maskValue_of_not (h : ¬(Sensitive key ∧ value ≠ .null)) :
    maskValue key value = mask value := by
  rw [maskValue, if_neg (mt isSecret_iff.1 h)]

theorem mask_eq_null_iff : mask value = .null ↔ value = .null := by
  cases value <;> simp [mask]

theorem maskValue_eq_null_iff (key : String) : maskValue key value = .null ↔ value = .null := by
  by_cases h : Sensitive key ∧ value ≠ .null
  · simp [maskValue_of_secret h.1 h.2, h.2]
  · rw [maskValue_of_not h, mask_eq_null_iff]

end

/-! ## Values with the same masked value -/

section

variable {a b : Json}

theorem onlySecretsDiffer_str_iff {s : String} : OnlySecretsDiffer (.str s) b ↔
    ∃ t, b = .str t ∧
      (s = t ∨ ∃ name secret other, AssignsSecret s name secret ∧ AssignsSecret t name other) := by
  constructor
  · intro h
    cases h with
    | refl => exact ⟨s, rfl, .inl rfl⟩
    | assigned hs ht => exact ⟨_, rfl, .inr ⟨_, _, _, hs, ht⟩⟩
  · rintro ⟨t, rfl, rfl | ⟨name, secret, other, hs, ht⟩⟩
    · exact .refl _
    · exact .assigned hs ht

theorem onlySecretsDiffer_arr_iff {items : List Json} : OnlySecretsDiffer (.arr items) b ↔
    ∃ others, b = .arr others ∧ List.Forall₂ OnlySecretsDiffer items others := by
  constructor
  · intro h
    cases h with
    | refl => exact ⟨items, rfl, List.forall₂_same.2 fun item _ ↦ .refl item⟩
    | arr h => exact ⟨_, rfl, h⟩
  · rintro ⟨others, rfl, h⟩
    exact .arr h

theorem onlySecretsDiffer_obj_iff {fields : List (String × Json)} :
    OnlySecretsDiffer (.obj fields) b ↔
      ∃ others, b = .obj others ∧ List.Forall₂ (FieldsMatch OnlySecretsDiffer) fields others := by
  constructor
  · intro h
    cases h with
    | refl => exact ⟨fields, rfl, List.forall₂_same.2 fun field _ ↦ .inside (.refl field.2)⟩
    | obj h => exact ⟨_, rfl, h⟩
  · rintro ⟨others, rfl, h⟩
    exact .obj h

theorem map_eq_map_iff_of_mem {α β : Type} {f : α → β} {R : α → α → Prop} {xs : List α}
    (h : ∀ x ∈ xs, ∀ y, f x = f y ↔ R x y) (ys : List α) :
    xs.map f = ys.map f ↔ List.Forall₂ R xs ys := by
  rw [← List.forall₂_eq_eq_eq, List.forall₂_map_left_iff, List.forall₂_map_right_iff]
  constructor
  · intro hxs
    exact ((List.forall₂_and_left xs ys).2 ⟨h, hxs⟩).imp fun x y hxy ↦ (hxy.1 y).1 hxy.2
  · intro hxs
    exact ((List.forall₂_and_left xs ys).2 ⟨h, hxs⟩).imp fun x y hxy ↦ (hxy.1 y).2 hxy.2

theorem maskValue_eq_iff {field : String × Json}
    (ih : ∀ {b}, mask field.2 = mask b ↔ OnlySecretsDiffer field.2 b) (other : String × Json) :
    (field.1, maskValue field.1 field.2) = (other.1, maskValue other.1 other.2) ↔
      FieldsMatch OnlySecretsDiffer field other := by
  obtain ⟨key, value⟩ := field
  obtain ⟨key', value'⟩ := other
  -- On either side both values are null or neither is, so both are secrets or neither is.
  constructor
  · intro h
    obtain ⟨rfl, h⟩ := Prod.mk.inj h
    have hnull : value = .null ↔ value' = .null := by
      rw [← maskValue_eq_null_iff key, h, maskValue_eq_null_iff]
    by_cases hsecret : Sensitive key ∧ value ≠ .null
    · exact .secret hsecret.1 hsecret.2 (mt hnull.2 hsecret.2)
    · have hother : ¬(Sensitive key ∧ value' ≠ .null) := by rwa [ne_eq, ← hnull]
      rw [maskValue_of_not hsecret, maskValue_of_not hother] at h
      exact .inside (ih.1 h)
  · rintro (⟨hkey, hvalue, hother⟩ | h)
    · rw [maskValue_of_secret hkey hvalue, maskValue_of_secret hkey hother]
    have hmask := ih.2 h
    have hnull : value = .null ↔ value' = .null := by
      rw [← mask_eq_null_iff, hmask, mask_eq_null_iff]
    by_cases hsecret : Sensitive key ∧ value ≠ .null
    · rw [maskValue_of_secret hsecret.1 hsecret.2,
        maskValue_of_secret hsecret.1 (mt hnull.2 hsecret.2)]
    · have hother : ¬(Sensitive key ∧ value' ≠ .null) := by rwa [ne_eq, ← hnull]
      rw [maskValue_of_not hsecret, maskValue_of_not hother, hmask]

theorem mask_eq_mask_iff : mask a = mask b ↔ OnlySecretsDiffer a b := by
  induction a generalizing b with
  | null | bool _ | int _ | float _ =>
    constructor
    · intro h
      cases b <;> simp_all [mask, OnlySecretsDiffer.refl]
    · rintro ⟨⟩
      rfl
  | str s =>
    rw [onlySecretsDiffer_str_iff]
    cases b <;> simp [mask, maskAssignment_eq_iff]
  | arr items ih =>
    have hitems := map_eq_map_iff_of_mem fun item hitem _ ↦ ih item hitem
    rw [onlySecretsDiffer_arr_iff]
    cases b <;> simp [mask, maskItems_eq_map, hitems]
  | obj fields ih =>
    have hfields := map_eq_map_iff_of_mem fun field hfield ↦ maskValue_eq_iff (ih field hfield)
    rw [onlySecretsDiffer_obj_iff]
    cases b <;> simp [mask, maskFields_eq_map, hfields]

/-! ## Masked values -/

theorem not_holdsSecret_mark (secret : Json) : ¬HoldsSecret (.str mark) secret := by
  rintro ⟨htext, -, -⟩
  have hsep : '=' ∈ mark.toList := by simp [htext]
  exact absurd hsep (by decide)

theorem eq_mark_of_holdsSecret_mask {secret : Json} (h : HoldsSecret (mask a) secret) :
    secret = .str mark := by
  induction a with
  | null | bool _ | int _ | float _ =>
    simp only [mask] at h
    cases h
  | str s =>
    rw [mask] at h
    cases h with
    | assigned h => rw [(assignsSecret_maskAssignment_iff.1 h).1]
  | arr items ih =>
    rw [mask, maskItems_eq_map] at h
    cases h with
    | inItem hmem h =>
      obtain ⟨item, hitem, rfl⟩ := List.mem_map.1 hmem
      exact ih item hitem h
  | obj fields ih =>
    rw [mask, maskFields_eq_map] at h
    cases h with
    | field hmem hkey hvalue =>
      obtain ⟨⟨key, value⟩, hfield, heq⟩ := List.mem_map.1 hmem
      obtain ⟨rfl, rfl⟩ := Prod.mk.inj heq
      exact maskValue_of_secret hkey (mt (maskValue_eq_null_iff key).2 hvalue)
    | inField hmem h =>
      obtain ⟨⟨key, value⟩, hfield, heq⟩ := List.mem_map.1 hmem
      obtain ⟨rfl, rfl⟩ := Prod.mk.inj heq
      by_cases hsecret : Sensitive key ∧ value ≠ .null
      · rw [maskValue_of_secret hsecret.1 hsecret.2] at h
        exact absurd h (not_holdsSecret_mark _)
      · rw [maskValue_of_not hsecret] at h
        exact ih _ hfield h

theorem mask_eq_self (h : ∀ secret, HoldsSecret a secret → secret = .str mark) : mask a = a := by
  induction a with
  | null | bool _ | int _ | float _ => simp only [mask]
  | str s =>
    rw [mask]
    congr 1
    by_cases hs : ∃ name secret, AssignsSecret s name secret
    · obtain ⟨name, secret, hs⟩ := hs
      obtain rfl : secret = mark := by simpa using h _ (.assigned hs)
      rw [maskAssignment_of_assignsSecret hs, hs.text]
    · exact maskAssignment_of_not hs
  | arr items ih =>
    rw [mask, maskItems_eq_map]
    congr 1
    refine (List.map_congr_left fun item hitem ↦ ?_).trans (List.map_id items)
    exact ih item hitem fun secret hsecret ↦ h secret (.inItem hitem hsecret)
  | obj fields ih =>
    rw [mask, maskFields_eq_map]
    congr 1
    refine (List.map_congr_left fun field hfield ↦ ?_).trans (List.map_id fields)
    obtain ⟨key, value⟩ := field
    refine congrArg (Prod.mk key) ?_
    by_cases hsecret : Sensitive key ∧ value ≠ .null
    · rw [maskValue_of_secret hsecret.1 hsecret.2, h value (.field hfield hsecret.1 hsecret.2)]
    · rw [maskValue_of_not hsecret]
      exact ih _ hfield fun secret hinside ↦ h secret (.inField hfield hinside)

theorem mask_mask (a : Json) : mask (mask a) = mask a :=
  mask_eq_self fun _ ↦ eq_mark_of_holdsSecret_mask

end

/-- A masked value shows of a value all but its secrets: two values have the same one exactly if
they differ at secret positions only. The mark stands at every secret position of a masked value, so
masking it again changes nothing. A value stays as it is exactly if it has no secret position, or
none that holds anything but the mark. -/
theorem mask_hides_secrets (a b : Json) :
    (mask a = mask b ↔ OnlySecretsDiffer a b) ∧
      (∀ secret, HoldsSecret (mask a) secret → secret = .str mark) ∧
      mask (mask a) = mask a ∧
      (mask a = a ↔ ∀ secret, HoldsSecret a secret → secret = .str mark) := by
  refine ⟨mask_eq_mask_iff, fun _ ↦ eq_mark_of_holdsSecret_mask, mask_mask a, ?_, mask_eq_self⟩
  intro h secret hsecret
  exact eq_mark_of_holdsSecret_mask (h.symm ▸ hsecret)

/-- Secrets of any shape, alone, in lists of assignments and below other secrets. -/
example : mask (.obj [("addattr", .arr [.str "UserPassword=a=b", .str "mail=a=b"]),
      ("ipaTokenOTPKey", .obj [("password", .int 1)]), ("password", .null)]) =
    .obj [("addattr", .arr [.str "UserPassword=***", .str "mail=a=b"]),
      ("ipaTokenOTPKey", .str "***"), ("password", .null)] := by decide +kernel

end DirectoryReconcile.Masking
