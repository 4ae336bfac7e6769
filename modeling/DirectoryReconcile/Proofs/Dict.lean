import DirectoryReconcile.Json

/-!
# Look-ups in built dictionaries

One equation for each way to build a dictionary from another one. With them a dictionary is known
by its look-ups alone, and no later proof opens the list of entries.
-/

namespace DirectoryReconcile

namespace Dict

variable {α β : Type}

theorem mem_of_lookupEntry {key : String} {value : α} {entries : List (String × α)}
    (h : lookupEntry key entries = some value) : (key, value) ∈ entries := by
  induction entries with
  | nil => simp [lookupEntry] at h
  | cons head rest ih =>
    unfold lookupEntry at h
    split at h
    next heq =>
      obtain ⟨k, v⟩ := head
      obtain rfl : v = value := by simpa using h
      exact heq ▸ List.mem_cons_self
    next => exact List.mem_cons_of_mem _ (ih h)

/-- Where no key is repeated, every entry is found. -/
theorem lookupEntry_of_mem {key : String} {value : α} {entries : List (String × α)}
    (hnodup : (entries.map (·.1)).Nodup) (h : (key, value) ∈ entries) :
    lookupEntry key entries = some value := by
  induction entries with
  | nil => simp at h
  | cons head rest ih =>
    obtain ⟨hhead, hrest⟩ := List.nodup_cons.1 hnodup
    rcases List.mem_cons.1 h with rfl | h
    · simp [lookupEntry]
    · have hne : head.1 ≠ key := fun heq ↦ hhead (List.mem_map.2 ⟨(key, value), h, heq.symm⟩)
      unfold lookupEntry
      rw [if_neg hne]
      exact ih hrest h

theorem nodup_keys (dict : Dict α) : dict.keys.Nodup :=
  List.pairwise_map.2 <| dict.ascending.imp fun {a b} (h : a.1 < b.1) heq ↦
    String.lt_irrefl b.1 (by rwa [heq] at h)

theorem mem_entries_iff (dict : Dict α) {key : String} {value : α} :
    (key, value) ∈ dict.entries ↔ dict.get? key = some value :=
  ⟨lookupEntry_of_mem dict.nodup_keys, mem_of_lookupEntry⟩

theorem mem_values_iff (dict : Dict α) {value : α} :
    value ∈ dict.values ↔ ∃ key, dict.get? key = some value := by
  constructor
  · intro h
    obtain ⟨⟨key, _⟩, hentry, rfl⟩ := List.mem_map.1 h
    exact ⟨key, dict.mem_entries_iff.1 hentry⟩
  · rintro ⟨key, h⟩
    exact List.mem_map.2 ⟨(key, value), dict.mem_entries_iff.2 h, rfl⟩

theorem get?_filter (dict : Dict α) (keep : String → α → Bool) (key : String) :
    (dict.filter keep).get? key = (dict.get? key).filter (keep key) := by
  ext value
  rw [← mem_entries_iff, Option.filter_eq_some_iff, ← mem_entries_iff]
  exact List.mem_filter

theorem get?_filterMap (dict : Dict α) (f : String → α → Option β) (key : String) :
    (dict.filterMap f).get? key = (dict.get? key).bind (f key) := by
  ext value
  rw [← mem_entries_iff, Option.bind_eq_some_iff]
  constructor
  · intro h
    obtain ⟨⟨k, v⟩, hmem, hmap⟩ := List.mem_filterMap.1 h
    obtain ⟨w, hw, heq⟩ := Option.map_eq_some_iff.1 hmap
    obtain ⟨rfl, rfl⟩ := Prod.mk.inj heq
    exact ⟨v, dict.mem_entries_iff.1 hmem, hw⟩
  · rintro ⟨v, hv, hf⟩
    exact List.mem_filterMap.2
      ⟨(key, v), dict.mem_entries_iff.2 hv, Option.map_eq_some_iff.2 ⟨value, hf, rfl⟩⟩

theorem get?_mapValues (dict : Dict α) (f : α → β) (key : String) :
    (dict.mapValues f).get? key = (dict.get? key).map f := by
  ext value
  rw [← mem_entries_iff, Option.map_eq_some_iff]
  constructor
  · intro h
    obtain ⟨⟨k, v⟩, hmem, heq⟩ := List.mem_map.1 h
    obtain ⟨rfl, rfl⟩ := Prod.mk.inj heq
    exact ⟨v, dict.mem_entries_iff.1 hmem, rfl⟩
  · rintro ⟨v, hv, rfl⟩
    exact List.mem_map.2 ⟨(key, v), dict.mem_entries_iff.2 hv, rfl⟩

theorem eq_empty_iff (dict : Dict α) : dict = ∅ ↔ ∀ key, dict.get? key = none :=
  ⟨fun h key ↦ by rw [h, get?_empty], fun h ↦ ext fun key ↦ by rw [h, get?_empty]⟩

theorem isEmpty_iff (dict : Dict α) : dict.isEmpty = true ↔ dict = ∅ := by
  unfold isEmpty
  rw [List.isEmpty_iff]
  constructor
  · intro h
    apply dict.eq_empty_iff.2
    intro key
    unfold get?
    rw [h, lookupEntry]
  · rintro rfl
    rfl

/-- A key among the inserted entries has the value of one of them, any other key its old value. -/
theorem get?_insertMany_cases (dict : Dict α) (entries : List (String × α)) (key : String) :
    (∃ value, (key, value) ∈ entries ∧ (dict.insertMany entries).get? key = some value) ∨
      key ∉ entries.map (·.1) ∧ (dict.insertMany entries).get? key = dict.get? key := by
  induction entries generalizing dict with
  | nil => exact .inr ⟨by simp, rfl⟩
  | cons head rest ih =>
    rcases ih (dict.insert head.1 head.2) with ⟨value, hmem, hget⟩ | ⟨hnot, hget⟩
    · exact .inl ⟨value, List.mem_cons_of_mem _ hmem, hget⟩
    · by_cases heq : head.1 = key
      · refine .inl ⟨head.2, heq ▸ List.mem_cons_self, hget.trans ?_⟩
        rw [get?_insert, if_pos heq]
      · refine .inr ⟨?_, hget.trans ?_⟩
        · rw [List.map_cons, List.mem_cons, not_or]
          exact ⟨fun h ↦ heq h.symm, hnot⟩
        · rw [get?_insert, if_neg heq]

theorem get?_insertMany_of_mem (dict : Dict α) {entries : List (String × α)} {key : String}
    {value : α} (hnodup : (entries.map (·.1)).Nodup) (h : (key, value) ∈ entries) :
    (dict.insertMany entries).get? key = some value := by
  rcases dict.get?_insertMany_cases entries key with ⟨other, hmem, hget⟩ | ⟨hnot, -⟩
  · have hother := lookupEntry_of_mem hnodup hmem
    rw [lookupEntry_of_mem hnodup h] at hother
    exact hget.trans hother.symm
  · exact absurd (List.mem_map.2 ⟨(key, value), h, rfl⟩) hnot

theorem insert_ne_empty (dict : Dict α) (key : String) (value : α) : dict.insert key value ≠ ∅ := by
  intro hempty
  have hget := dict.get?_insert_self key value
  simp [hempty] at hget

theorem insertMany_ne_empty (dict : Dict α) {entries : List (String × α)}
    (h : dict ≠ ∅ ∨ entries ≠ []) : dict.insertMany entries ≠ ∅ := by
  induction entries generalizing dict with
  | nil => exact h.resolve_right (by simp)
  | cons entry rest ih => exact ih _ (.inl (dict.insert_ne_empty _ _))

theorem get?_insertMany_of_not_mem (dict : Dict α) {entries : List (String × α)} {key : String}
    (h : key ∉ entries.map (·.1)) : (dict.insertMany entries).get? key = dict.get? key := by
  rcases dict.get?_insertMany_cases entries key with ⟨value, hmem, -⟩ | ⟨-, hget⟩
  · exact absurd (List.mem_map.2 ⟨(key, value), hmem, rfl⟩) h
  · exact hget

theorem get?_ofList {entries : List (String × α)} (hnodup : (entries.map (·.1)).Nodup)
    (key : String) : (ofList entries).get? key = lookupEntry key entries := by
  cases hget : lookupEntry key entries with
  | some value => exact get?_insertMany_of_mem ∅ hnodup (mem_of_lookupEntry hget)
  | none =>
    refine get?_insertMany_of_not_mem ∅ fun hmem ↦ ?_
    rw [← lookupEntry_isSome_iff, hget] at hmem
    exact absurd hmem (by simp)

theorem mem_of_get?_ofList {entries : List (String × α)} {key : String} {value : α}
    (h : (ofList entries).get? key = some value) : (key, value) ∈ entries := by
  unfold ofList at h
  rcases (∅ : Dict α).get?_insertMany_cases entries key with ⟨other, hmem, hget⟩ | ⟨-, hnone⟩
  · rwa [← Option.some.inj (hget.symm.trans h)]
  · simp [hnone] at h

/-- Where entries with one key agree, the key has the value of any of them. -/
theorem get?_ofList_eq_some_iff {entries : List (String × α)} {key : String} {value : α}
    (hunique : ∀ first second, (key, first) ∈ entries → (key, second) ∈ entries → first = second) :
    (ofList entries).get? key = some value ↔ (key, value) ∈ entries := by
  refine ⟨mem_of_get?_ofList, fun hvalue ↦ ?_⟩
  rcases (∅ : Dict α).get?_insertMany_cases entries key with ⟨found, hfound, hget⟩ | ⟨hnot, -⟩
  · rw [hunique value found hvalue hfound]
    exact hget
  · exact absurd (List.mem_map.2 ⟨_, hvalue, rfl⟩) hnot

@[simp] theorem ofList_entries (dict : Dict α) : ofList dict.entries = dict :=
  ext fun key ↦ get?_ofList dict.nodup_keys key

theorem get?_insertMany_entries (dict other : Dict α) (key : String) :
    (dict.insertMany other.entries).get? key = (other.get? key).or (dict.get? key) := by
  cases hget : other.get? key with
  | some value => exact dict.get?_insertMany_of_mem other.nodup_keys (other.mem_entries_iff.2 hget)
  | none =>
    refine dict.get?_insertMany_of_not_mem fun hmem ↦ ?_
    have hsome := lookupEntry_isSome_iff.2 hmem
    rw [← get?, hget] at hsome
    exact absurd hsome (by simp)

theorem insert_insert (dict : Dict α) (key : String) (first second : α) :
    (dict.insert key first).insert key second = dict.insert key second := by
  ext other
  simp only [get?_insert]
  split <;> rfl

theorem insert_get? (dict : Dict α) {key : String} {value : α} (h : dict.get? key = some value) :
    dict.insert key value = dict := by
  ext other
  rw [get?_insert]
  split
  next heq => rw [← heq, h]
  next => rfl

/-- Without its first key, a dictionary is left with the later values. -/
theorem values_erase_head {dict : Dict α} {key : String} {value : α} {rest : List (String × α)}
    (h : dict.entries = (key, value) :: rest) : (dict.erase key).values = rest.map (·.2) := by
  have hasc := dict.ascending
  rw [h] at hasc
  have hkeep : rest.filter (fun entry ↦ entry.1 != key) = rest :=
    List.filter_eq_self.2 fun entry hentry ↦ by
      have hlt : key < entry.1 := (List.pairwise_cons.1 hasc).1 entry hentry
      exact bne_iff_ne.2 fun heq ↦ String.lt_irrefl key (by rwa [heq] at hlt)
  simp [values, erase, filter, h, hkeep]

end Dict

theorem Json.get?_ofFields {fields : List (String × Json)} (hnodup : (fields.map (·.1)).Nodup)
    (key : String) : (ofFields fields).get? key = Dict.lookupEntry key fields :=
  Dict.get?_ofList hnodup key

end DirectoryReconcile
