import DirectoryReconcile.Filter.Certificate

/-!
# Lines of a certificate

Wrapping keeps the characters of a certificate that are not blank in their order, in full lines but
for the last one. They can be put into such lines in one way only, so a wrapped body is wrapped as
before.
-/

namespace DirectoryReconcile.Certificate

/-- Characters in lines: none is empty, and all are full but for the last one. -/
structure InLines (width : Nat) (cs : List Char) (lines : List (List Char)) : Prop where
  flatten : lines.flatten = cs
  nonempty : ∀ line ∈ lines, line ≠ []
  short : ∀ line ∈ lines, line.length ≤ width
  full : ∀ line ∈ lines.dropLast, line.length = width

variable {width : Nat} {cs line after : List Char} {lines rest : List (List Char)}

theorem inLines_nil_iff : InLines width cs [] ↔ cs = [] :=
  ⟨fun h ↦ h.flatten.symm, fun h ↦ ⟨h.symm, nofun, nofun, nofun⟩⟩

theorem InLines.eq_nil_iff (h : InLines width cs lines) : lines = [] ↔ cs = [] := by
  constructor
  · rintro rfl
    exact inLines_nil_iff.1 h
  · rintro rfl
    refine List.eq_nil_iff_forall_not_mem.2 fun line hline ↦ ?_
    exact h.nonempty line hline (List.flatten_eq_nil_iff.1 h.flatten line hline)

theorem inLines_cons_iff : InLines width cs (line :: rest) ↔
    (line ≠ [] ∧ line.length ≤ width ∧ (rest ≠ [] → line.length = width)) ∧
      ∃ after, cs = line ++ after ∧ InLines width after rest := by
  constructor
  · rintro ⟨rfl, hnonempty, hshort, hfull⟩
    obtain ⟨hline, hnonempty⟩ := List.forall_mem_cons.1 hnonempty
    obtain ⟨hlength, hshort⟩ := List.forall_mem_cons.1 hshort
    refine ⟨⟨hline, hlength, fun hrest ↦ ?_⟩, rest.flatten, rfl, rfl, hnonempty, hshort, ?_⟩
    · rw [List.dropLast_cons_of_ne_nil hrest] at hfull
      exact hfull line List.mem_cons_self
    · cases rest with
      | nil => nofun
      | cons next rest => exact fun line hline ↦ hfull line (List.mem_cons_of_mem _ hline)
  · rintro ⟨⟨hline, hlength, hwidth⟩, after, rfl, hafter⟩
    refine ⟨by rw [List.flatten_cons, hafter.flatten],
      List.forall_mem_cons.2 ⟨hline, hafter.nonempty⟩,
      List.forall_mem_cons.2 ⟨hlength, hafter.short⟩, ?_⟩
    cases rest with
    | nil => nofun
    | cons next rest => exact List.forall_mem_cons.2 ⟨hwidth nofun, hafter.full⟩

/-- A line is cut off where it ends if it is full or nothing follows. -/
theorem chunks_append (hline : line ≠ []) (hlength : line.length ≤ width + 1)
    (hwidth : after ≠ [] → line.length = width + 1) :
    chunks width (line ++ after) = line :: chunks width after := by
  obtain ⟨c, tail, rfl⟩ := List.exists_cons_of_ne_nil hline
  simp only [List.length_cons, Nat.add_le_add_iff_right, Nat.add_right_cancel_iff] at hlength hwidth
  rw [List.cons_append, chunks]
  by_cases hafter : after = []
  · rw [hafter, List.append_nil, List.take_of_length_le hlength, List.drop_of_length_le hlength]
  · rw [List.take_left' (hwidth hafter), List.drop_left' (hwidth hafter)]

theorem inLines_iff : InLines (width + 1) cs lines ↔ lines = chunks width cs := by
  constructor
  · intro h
    induction lines generalizing cs with
    | nil => rw [inLines_nil_iff.1 h, chunks]
    | cons line rest ih =>
      obtain ⟨⟨hline, hlength, hwidth⟩, after, rfl, hafter⟩ := inLines_cons_iff.1 h
      rw [chunks_append hline hlength fun hne ↦ hwidth (mt hafter.eq_nil_iff.1 hne), ih hafter]
  · rintro rfl
    fun_induction chunks width cs with
    | case1 => exact inLines_nil_iff.2 rfl
    | case2 c rest ih =>
      have hlength : (c :: rest.take width).length ≤ width + 1 :=
        Nat.succ_le_succ (List.length_take_le width rest)
      refine inLines_cons_iff.2
        ⟨⟨List.cons_ne_nil _ _, hlength, fun hne ↦ ?_⟩, rest.drop width, by simp, ih⟩
      have hlong : width < rest.length := by simpa using mt ih.eq_nil_iff.2 hne
      rw [List.length_cons, List.length_take_of_le (Nat.le_of_lt hlong)]

theorem body_ofList_body (text : String) : body (String.ofList (body text)) = body text := by
  simp [body, List.filter_filter]

/-- A wrapped certificate is a begin line, the only lines of at most 64 characters that hold what is
not blank, and an end line. What stands in these lines is wrapped as the whole text is. -/
theorem wrap_keeps_body (text : String) : ∃ lines : List (List Char),
    (∀ others,
      InLines 64 (text.toList.filter fun c ↦ !Text.isBlank c) others ↔ others = lines) ∧
    wrap text = "-----BEGIN CERTIFICATE-----\n" ++
      String.join (lines.map fun line ↦ String.ofList line ++ "\n") ++
        "-----END CERTIFICATE-----\n" ∧
    wrap (String.ofList lines.flatten) = wrap text := by
  have hlines : InLines 64 (body text) (bodyLines text) := inLines_iff.2 rfl
  refine ⟨bodyLines text, fun others ↦ inLines_iff, ?_, ?_⟩
  · rw [wrap, List.map_append, List.map_cons, List.map_map, String.join_append, String.join_cons,
      List.map_singleton, String.join_cons, String.join_nil]
    rfl
  · rw [hlines.flatten, wrap, wrap, bodyLines, bodyLines, body_ofList_body]

end DirectoryReconcile.Certificate
