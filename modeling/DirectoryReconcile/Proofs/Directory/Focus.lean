import DirectoryReconcile.Directory

/-!
# One entry among many

Identities are told apart up to the case of letters. The entry with an identity is taken out of the
entries of its type and put back in its place; both leave the entries with other identities alone.
-/

namespace DirectoryReconcile

namespace Entry

theorem isNamed_congr (entry : Entry) {a b : List String} (h : sameIdentity a b) :
    entry.isNamed a = entry.isNamed b := by
  rw [Bool.eq_iff_iff]
  exact ⟨fun ha ↦ sameIdentity_trans ha h, fun hb ↦ sameIdentity_trans hb (sameIdentity_symm h)⟩

/-- The entry with an identity. -/
def focus (identity : List String) (entries : List Entry) : Option Entry :=
  entries.find? fun entry ↦ entry.isNamed identity

/-- The entries with another entry, or none, in the place of the one with an identity. An entry
with a new identity goes to the end. -/
def put (identity : List String) (held : Option Entry) (entries : List Entry) : List Entry :=
  match held with
  | none => Operation.discard identity entries
  | some entry =>
    if entries.any fun other ↦ other.isNamed identity then Operation.replace entry entries
    else entries ++ [entry]

/-- No two entries have the same identity. -/
def Distinct (entries : List Entry) : Prop :=
  entries.Pairwise fun first second ↦ ¬sameIdentity first.identity second.identity

/-- An entry, if there is one, has this identity. -/
def NamedBy (identity : List String) (held : Option Entry) : Prop :=
  ∀ entry, held = some entry → entry.isNamed identity

theorem namedBy_none (identity : List String) : NamedBy identity none := fun _ h ↦ by simp at h

theorem namedBy_focus (identity : List String) (entries : List Entry) :
    NamedBy identity (focus identity entries) := fun entry h ↦ by
  simpa using List.find?_some h

theorem focus_congr {a b : List String} (h : sameIdentity a b) (entries : List Entry) :
    focus a entries = focus b entries := by
  simp only [focus, isNamed_congr _ h]

theorem any_isNamed (identity : List String) (entries : List Entry) :
    (entries.any fun entry ↦ entry.isNamed identity) = (focus identity entries).isSome := by
  unfold focus
  rw [Bool.eq_iff_iff, List.find?_isSome]
  simp

theorem focus_cons_of_named {identity : List String} {entry : Entry} (h : entry.isNamed identity)
    (entries : List Entry) : focus identity (entry :: entries) = some entry := by
  simp [focus, h]

theorem focus_cons_of_not_named {identity : List String} {entry : Entry}
    (h : ¬entry.isNamed identity) (entries : List Entry) :
    focus identity (entry :: entries) = focus identity entries := by
  simp [focus, h]

theorem focus_eq_none_iff {identity : List String} {entries : List Entry} :
    focus identity entries = none ↔ ∀ entry ∈ entries, ¬entry.isNamed identity := by
  simp [focus]

theorem discard_of_focus_eq_none {identity : List String} {entries : List Entry}
    (h : focus identity entries = none) : Operation.discard identity entries = entries := by
  induction entries with
  | nil => rfl
  | cons head rest ih =>
    rw [focus_eq_none_iff] at h
    have hhead : head.isNamed identity = false := by simpa using h head List.mem_cons_self
    have hrest := ih (focus_eq_none_iff.2 fun entry hentry ↦ h entry (List.mem_cons_of_mem _ hentry))
    simp [Operation.discard, hhead, hrest]

theorem discard_congr {a b : List String} (h : sameIdentity a b) (entries : List Entry) :
    Operation.discard a entries = Operation.discard b entries := by
  induction entries with
  | nil => rfl
  | cons head rest ih => simp [Operation.discard, isNamed_congr head h, ih]

theorem replace_append_of_focus_eq_none {entry : Entry} {entries : List Entry} (other : Entry)
    (h : focus entry.identity entries = none) (hother : other.isNamed entry.identity) :
    Operation.replace entry (entries ++ [other]) = entries ++ [entry] := by
  induction entries with
  | nil => simp [Operation.replace, hother]
  | cons head rest ih =>
    rw [focus_eq_none_iff] at h
    have hhead : head.isNamed entry.identity = false := by simpa using h head List.mem_cons_self
    have hrest := ih (focus_eq_none_iff.2 fun e he ↦ h e (List.mem_cons_of_mem _ he))
    simp [Operation.replace, hhead, hrest]

theorem focus_append (identity : List String) (first second : List Entry) :
    focus identity (first ++ second) = (focus identity first).or (focus identity second) :=
  List.find?_append

theorem focus_singleton {identity : List String} {entry : Entry} (h : entry.isNamed identity) :
    focus identity [entry] = some entry :=
  focus_cons_of_named h []

theorem focus_toList {identity : List String} {held : Option Entry}
    (h : NamedBy identity held) : focus identity held.toList = held := by
  cases held with
  | none => rfl
  | some entry => exact focus_singleton (h entry rfl)

/-! ## Entries after one was put back -/

variable {identity other : List String} {entry : Entry} {entries : List Entry}

theorem mem_replace {e : Entry} (h : e ∈ Operation.replace entry entries) :
    e = entry ∨ e ∈ entries := by
  induction entries with
  | nil => simp [Operation.replace] at h
  | cons head rest ih =>
    unfold Operation.replace at h
    split at h
    · exact (List.mem_cons.1 h).imp id (List.mem_cons_of_mem _)
    · rcases List.mem_cons.1 h with rfl | h
      · exact .inr List.mem_cons_self
      · exact (ih h).imp id (List.mem_cons_of_mem _)

theorem discard_sublist (identity : List String) (entries : List Entry) :
    (Operation.discard identity entries).Sublist entries := by
  induction entries with
  | nil => exact .slnil
  | cons head rest ih =>
    unfold Operation.discard
    split
    · exact List.sublist_cons_self _ _
    · exact ih.cons_cons head

theorem mem_put {e : Entry} {held : Option Entry} (h : e ∈ put identity held entries) :
    held = some e ∨ e ∈ entries := by
  cases held with
  | none => exact .inr ((discard_sublist identity entries).subset h)
  | some entry =>
    rw [put] at h
    split at h
    · exact (mem_replace h).imp (fun heq ↦ by rw [heq]) id
    · exact (List.mem_append.1 h).symm.imp (fun heq ↦ by rw [List.mem_singleton.1 heq]) id

theorem focus_replace_self (hentry : entry.isNamed identity)
    (hsome : (focus identity entries).isSome) :
    focus identity (Operation.replace entry entries) = some entry := by
  induction entries with
  | nil => simp [focus] at hsome
  | cons head rest ih =>
    have hiff : head.isNamed entry.identity = head.isNamed identity := isNamed_congr head hentry
    unfold Operation.replace
    rw [hiff]
    split
    next => rw [focus_cons_of_named hentry]
    next hhead =>
      rw [focus_cons_of_not_named hhead] at hsome ⊢
      exact ih hsome

theorem focus_replace_other (hentry : ¬entry.isNamed other) (entries : List Entry) :
    focus other (Operation.replace entry entries) = focus other entries := by
  induction entries with
  | nil => rfl
  | cons head rest ih =>
    unfold Operation.replace
    split
    next hhead =>
      have hother : ¬head.isNamed other := fun h ↦
        hentry (sameIdentity_trans (sameIdentity_symm hhead) h)
      rw [focus_cons_of_not_named hentry, focus_cons_of_not_named hother]
    next =>
      rw [focus, focus, List.find?_cons, List.find?_cons]
      split
      · rfl
      · exact ih

theorem discard_replace (hentry : entry.isNamed identity) (entries : List Entry) :
    Operation.discard identity (Operation.replace entry entries) =
      Operation.discard identity entries := by
  induction entries with
  | nil => rfl
  | cons head rest ih =>
    have hiff : head.isNamed entry.identity = head.isNamed identity := isNamed_congr head hentry
    unfold Operation.replace
    rw [hiff]
    split
    next hhead => simp only [Operation.discard, hentry, hhead, if_true]
    next hhead => rw [Operation.discard, Operation.discard, if_neg hhead, if_neg hhead, ih]

theorem focus_discard_self (hdistinct : Distinct entries) :
    focus identity (Operation.discard identity entries) = none := by
  induction entries with
  | nil => rfl
  | cons head rest ih =>
    obtain ⟨hhead, hrest⟩ := List.pairwise_cons.1 hdistinct
    unfold Operation.discard
    split
    next hnamed =>
      refine focus_eq_none_iff.2 fun e he hsame ↦ hhead e he ?_
      exact sameIdentity_trans hnamed (sameIdentity_symm hsame)
    next hnamed =>
      rw [focus_cons_of_not_named hnamed]
      exact ih hrest

theorem focus_discard_other (hother : ¬sameIdentity identity other) (entries : List Entry) :
    focus other (Operation.discard identity entries) = focus other entries := by
  induction entries with
  | nil => rfl
  | cons head rest ih =>
    unfold Operation.discard
    split
    next hnamed =>
      have hhead : ¬head.isNamed other := fun h ↦
        hother (sameIdentity_trans (sameIdentity_symm hnamed) h)
      rw [focus_cons_of_not_named hhead]
    next =>
      rw [focus, focus, List.find?_cons, List.find?_cons]
      split
      · rfl
      · exact ih

theorem replace_focus (h : focus identity entries = some entry) :
    Operation.replace entry entries = entries := by
  have hnamed : entry.isNamed identity := namedBy_focus identity entries entry h
  induction entries with
  | nil => rfl
  | cons head rest ih =>
    have hiff : head.isNamed entry.identity = head.isNamed identity := isNamed_congr head hnamed
    unfold Operation.replace
    rw [hiff]
    split
    next hhead =>
      rw [focus_cons_of_named hhead, Option.some.injEq] at h
      rw [h]
    next hhead =>
      rw [focus_cons_of_not_named hhead] at h
      rw [ih h]

/-- The entry put back as it was leaves all entries as they were. -/
theorem put_focus (identity : List String) (entries : List Entry) :
    put identity (focus identity entries) entries = entries := by
  cases h : focus identity entries with
  | none => exact discard_of_focus_eq_none h
  | some entry => rw [put, any_isNamed, h, Option.isSome_some, if_pos rfl, replace_focus h]

theorem focus_put_self {held : Option Entry} (hdistinct : Distinct entries)
    (hentry : NamedBy identity held) : focus identity (put identity held entries) = held := by
  cases held with
  | none => exact focus_discard_self hdistinct
  | some entry =>
    have hnamed := hentry entry rfl
    rw [put, any_isNamed]
    split
    next hsome => exact focus_replace_self hnamed hsome
    next hnone =>
      rw [Bool.not_eq_true, Option.isSome_eq_false_iff, Option.isNone_iff_eq_none] at hnone
      rw [focus_append, hnone, Option.none_or, focus_singleton hnamed]

theorem focus_put_other {held : Option Entry} (hentry : NamedBy identity held)
    (hother : ¬sameIdentity identity other) (entries : List Entry) :
    focus other (put identity held entries) = focus other entries := by
  cases held with
  | none => exact focus_discard_other hother entries
  | some entry =>
    have hnot : ¬entry.isNamed other := fun h ↦
      hother (sameIdentity_trans (sameIdentity_symm (hentry entry rfl)) h)
    rw [put]
    split
    · exact focus_replace_other hnot entries
    · rw [focus_append, focus_cons_of_not_named hnot, focus, focus, List.find?_nil, Option.or_none]

theorem distinct_replace (hdistinct : Distinct entries) :
    Distinct (Operation.replace entry entries) := by
  induction entries with
  | nil => exact hdistinct
  | cons head rest ih =>
    obtain ⟨hhead, hrest⟩ := List.pairwise_cons.1 hdistinct
    unfold Operation.replace
    split
    next hnamed =>
      refine List.pairwise_cons.2 ⟨fun e he hsame ↦ hhead e he ?_, hrest⟩
      exact sameIdentity_trans hnamed hsame
    next hnamed =>
      refine List.pairwise_cons.2 ⟨fun e he hsame ↦ ?_, ih hrest⟩
      rcases mem_replace he with rfl | he
      · exact hnamed hsame
      · exact hhead e he hsame

theorem distinct_put {held : Option Entry} (hdistinct : Distinct entries)
    (hentry : NamedBy identity held) : Distinct (put identity held entries) := by
  cases held with
  | none => exact hdistinct.sublist (discard_sublist identity entries)
  | some entry =>
    rw [put, any_isNamed]
    split
    next => exact distinct_replace hdistinct
    next hnone =>
      rw [Bool.not_eq_true, Option.isSome_eq_false_iff, Option.isNone_iff_eq_none,
        focus_eq_none_iff] at hnone
      refine List.pairwise_append.2 ⟨hdistinct, List.pairwise_singleton _ _, fun e he last hlast ↦ ?_⟩
      rw [List.mem_singleton.1 hlast]
      exact fun hsame ↦ hnone e he (sameIdentity_trans hsame (hentry entry rfl))

end Entry

end DirectoryReconcile
