/-!
# Dictionaries in key order

A dictionary keeps one value per key, in ascending code-point order of the keys, so two
dictionaries with the same look-ups are equal and "the first entry" has a meaning. The
insertion laws hold of the bare list of entries, without its order.
-/

namespace DirectoryReconcile

namespace Dict

theorem key_lt_of_not_lt_of_ne {a b : String} (h : ¬a < b) (hne : a ≠ b) : b < a := by
  by_cases hba : b < a
  · exact hba
  · exact absurd (String.le_antisymm (String.not_lt.1 hba) (String.not_lt.1 h)) hne

/-- Puts an entry at its place, replacing the one with the same key. -/
def insertEntry {α : Type} (key : String) (value : α) : List (String × α) → List (String × α)
  | [] => [(key, value)]
  | (k, v) :: rest =>
    if key < k then (key, value) :: (k, v) :: rest
    else if key = k then (key, value) :: rest
    else (k, v) :: insertEntry key value rest

/-- The value of the first entry with this key. -/
def lookupEntry {α : Type} (key : String) : List (String × α) → Option α
  | [] => none
  | (k, v) :: rest => if k = key then some v else lookupEntry key rest

variable {α : Type}

theorem mem_insertEntry {key : String} {value : α} {entry : String × α}
    {entries : List (String × α)} (h : entry ∈ insertEntry key value entries) :
    entry = (key, value) ∨ entry ∈ entries := by
  induction entries with
  | nil => simpa [insertEntry] using h
  | cons head rest ih =>
    obtain ⟨k, v⟩ := head
    rw [insertEntry] at h
    split at h
    · simpa using h
    split at h
    · rcases List.mem_cons.1 h with h | h
      · exact .inl h
      · exact .inr (List.mem_cons_of_mem _ h)
    · rcases List.mem_cons.1 h with h | h
      · exact .inr (h ▸ List.mem_cons_self)
      · exact (ih h).imp id (List.mem_cons_of_mem _)

theorem pairwise_insertEntry (key : String) (value : α) {entries : List (String × α)}
    (h : entries.Pairwise (·.1 < ·.1)) : (insertEntry key value entries).Pairwise (·.1 < ·.1) := by
  induction entries with
  | nil => simp [insertEntry]
  | cons head rest ih =>
    obtain ⟨k, v⟩ := head
    have hrest := List.pairwise_cons.1 h
    rw [insertEntry]
    split
    next hlt =>
      refine List.pairwise_cons.2 ⟨fun entry hentry ↦ ?_, h⟩
      rcases List.mem_cons.1 hentry with rfl | hentry
      · exact hlt
      · exact String.lt_trans hlt (hrest.1 entry hentry)
    next hlt =>
      split
      next heq => exact List.pairwise_cons.2 ⟨heq ▸ hrest.1, hrest.2⟩
      next hne =>
        refine List.pairwise_cons.2 ⟨fun entry hentry ↦ ?_, ih hrest.2⟩
        rcases mem_insertEntry hentry with rfl | hentry
        · exact key_lt_of_not_lt_of_ne hlt hne
        · exact hrest.1 entry hentry

theorem lookupEntry_insertEntry (key other : String) (value : α) (entries : List (String × α)) :
    lookupEntry other (insertEntry key value entries) =
      if key = other then some value else lookupEntry other entries := by
  induction entries with
  | nil => simp [insertEntry, lookupEntry]
  | cons head rest ih =>
    obtain ⟨k, v⟩ := head
    simp only [insertEntry]
    by_cases hlt : key < k
    · simp [hlt, lookupEntry]
    · by_cases heq : key = k
      · subst heq
        simp only [hlt, if_false, if_true, lookupEntry]
        split <;> rfl
      · simp only [hlt, heq, if_false, lookupEntry, ih]
        by_cases hk : k = other
        · subst hk
          simp [heq]
        · simp [hk]

theorem lookupEntry_eq_none {key : String} {entries : List (String × α)}
    (h : ∀ entry ∈ entries, key < entry.1) : lookupEntry key entries = none := by
  induction entries with
  | nil => rfl
  | cons head rest ih =>
    have hne : head.1 ≠ key := fun heq ↦
      String.lt_irrefl key (by simpa [heq] using h head List.mem_cons_self)
    simp only [lookupEntry, hne, if_false]
    exact ih fun entry hentry ↦ h entry (List.mem_cons_of_mem _ hentry)

theorem lookupEntry_isSome_iff {key : String} {entries : List (String × α)} :
    (lookupEntry key entries).isSome ↔ key ∈ entries.map (·.1) := by
  induction entries with
  | nil => simp [lookupEntry]
  | cons head rest ih => grind [lookupEntry]

theorem eq_of_lookupEntry_eq {left right : List (String × α)}
    (hleft : left.Pairwise (·.1 < ·.1)) (hright : right.Pairwise (·.1 < ·.1))
    (h : ∀ key, lookupEntry key left = lookupEntry key right) : left = right := by
  induction left generalizing right with
  | nil =>
    cases right with
    | nil => rfl
    | cons head rest => simpa [lookupEntry] using h head.1
  | cons head rest ih =>
    cases right with
    | nil => simpa [lookupEntry] using h head.1
    | cons head' rest' =>
      obtain ⟨k, v⟩ := head
      obtain ⟨k', v'⟩ := head'
      have hl := List.pairwise_cons.1 hleft
      have hr := List.pairwise_cons.1 hright
      have hkk : k = k' := by
        by_cases hlt : k < k'
        · have hnone : lookupEntry k ((k', v') :: rest') = none :=
            lookupEntry_eq_none fun entry hentry ↦ by
              rcases List.mem_cons.1 hentry with rfl | hentry
              · exact hlt
              · exact String.lt_trans hlt (hr.1 entry hentry)
          have hsome := h k
          rw [hnone] at hsome
          simp [lookupEntry] at hsome
        · by_cases heq : k = k'
          · exact heq
          · have hgt := key_lt_of_not_lt_of_ne hlt heq
            have hnone : lookupEntry k' ((k, v) :: rest) = none :=
              lookupEntry_eq_none fun entry hentry ↦ by
                rcases List.mem_cons.1 hentry with rfl | hentry
                · exact hgt
                · exact String.lt_trans hgt (hl.1 entry hentry)
            have hsome := h k'
            rw [hnone] at hsome
            simp [lookupEntry] at hsome
      subst hkk
      have hv : v = v' := by simpa [lookupEntry] using h k
      subst hv
      refine congrArg _ (ih hl.2 hr.2 fun key ↦ ?_)
      by_cases hk : k = key
      · subst hk
        rw [lookupEntry_eq_none hl.1, lookupEntry_eq_none hr.1]
      · simpa [lookupEntry, hk] using h key

end Dict

/-- One value per key, kept in strictly ascending code-point order of the keys. -/
structure Dict (α : Type) where
  entries : List (String × α)
  ascending : entries.Pairwise (·.1 < ·.1)

namespace Dict

variable {α β : Type}

instance [DecidableEq α] : DecidableEq (Dict α) := fun left right ↦
  decidable_of_iff (left.entries = right.entries)
    ⟨fun h ↦ by cases left; cases right; simpa using h, fun h ↦ h ▸ rfl⟩

def empty : Dict α := ⟨[], .nil⟩

instance : EmptyCollection (Dict α) := ⟨empty⟩

instance : Inhabited (Dict α) := ⟨empty⟩

def get? (dict : Dict α) (key : String) : Option α := lookupEntry key dict.entries

def contains (dict : Dict α) (key : String) : Bool := (dict.get? key).isSome

/-- Sets the value of a key, whether it had one or not. -/
def insert (dict : Dict α) (key : String) (value : α) : Dict α :=
  ⟨insertEntry key value dict.entries, pairwise_insertEntry key value dict.ascending⟩

/-- Keeps the entries whose key and value pass. -/
def filter (dict : Dict α) (keep : String → α → Bool) : Dict α :=
  ⟨dict.entries.filter fun entry ↦ keep entry.1 entry.2, dict.ascending.filter _⟩

/-- Keeps the entries with a new value. -/
def filterMap (dict : Dict α) (f : String → α → Option β) : Dict β :=
  ⟨dict.entries.filterMap fun entry ↦ (f entry.1 entry.2).map fun value ↦ (entry.1, value), by
    rw [List.pairwise_filterMap]
    refine dict.ascending.imp fun h left hleft right hright ↦ ?_
    obtain ⟨_, -, rfl⟩ := Option.map_eq_some_iff.1 hleft
    obtain ⟨_, -, rfl⟩ := Option.map_eq_some_iff.1 hright
    exact h⟩

def erase (dict : Dict α) (key : String) : Dict α := dict.filter fun k _ ↦ k != key

def keys (dict : Dict α) : List String := dict.entries.map (·.1)

def values (dict : Dict α) : List α := dict.entries.map (·.2)

def isEmpty (dict : Dict α) : Bool := dict.entries.isEmpty

def size (dict : Dict α) : Nat := dict.entries.length

/-- Inserts entries from left to right, so the last value of a key stays. -/
def insertMany (dict : Dict α) (entries : List (String × α)) : Dict α :=
  entries.foldl (fun acc entry ↦ acc.insert entry.1 entry.2) dict

def ofList (entries : List (String × α)) : Dict α := (∅ : Dict α).insertMany entries

def mapValues (dict : Dict α) (f : α → β) : Dict β :=
  ⟨dict.entries.map fun entry ↦ (entry.1, f entry.2), List.Pairwise.map _ (fun _ _ h ↦ h) dict.ascending⟩

@[ext] theorem ext {left right : Dict α} (h : ∀ key, left.get? key = right.get? key) :
    left = right := by
  have heq := eq_of_lookupEntry_eq left.ascending right.ascending h
  cases left
  cases right
  simpa using heq

@[simp] theorem get?_empty (key : String) : (∅ : Dict α).get? key = none := rfl

theorem get?_insert (dict : Dict α) (key other : String) (value : α) :
    (dict.insert key value).get? other = if key = other then some value else dict.get? other :=
  lookupEntry_insertEntry key other value dict.entries

@[simp] theorem get?_insert_self (dict : Dict α) (key : String) (value : α) :
    (dict.insert key value).get? key = some value := by
  simp [get?_insert]

theorem get?_erase (dict : Dict α) (key other : String) :
    (dict.erase key).get? other = if key = other then none else dict.get? other := by
  obtain ⟨entries, _⟩ := dict
  simp only [get?, erase, filter]
  induction entries with
  | nil => simp [lookupEntry]
  | cons head rest ih => grind [lookupEntry]

theorem contains_iff (dict : Dict α) (key : String) :
    dict.contains key = true ↔ key ∈ dict.keys :=
  lookupEntry_isSome_iff

end Dict

end DirectoryReconcile
