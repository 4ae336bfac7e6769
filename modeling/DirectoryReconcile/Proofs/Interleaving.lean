import DirectoryReconcile.Proofs.Directory.History

/-!
# Requests about different objects

Two runs for objects that differ in type or identity may take turns in any way: each goes as it
would alone, and the directory holds afterwards what it would hold after one run and then the other.
-/

namespace DirectoryReconcile

namespace Entry

theorem length_eq_of_sameIdentity {a b : List String} (h : sameIdentity a b) :
    a.length = b.length := by
  induction a generalizing b with
  | nil => cases b <;> simp_all [sameIdentity]
  | cons head rest ih =>
    cases b with
    | nil => simp [sameIdentity] at h
    | cons head' rest' =>
      simp only [sameIdentity, Bool.and_eq_true] at h
      rw [List.length_cons, List.length_cons, ih h.2]

end Entry

namespace Directory

open Exchange Entry Ensure

variable {allowance : Allowance} {directory : Directory} {left right : ObjectSchema}
  {leftTexts rightTexts : List String} {first second : DesiredState}

/-- What became of two objects settles what a directory holds. -/
theorem TurnedBoth.object?_eq {held held' : Option Entry} {after after' : Directory}
    (h : directory.TurnedBoth allowance left.name right.name leftTexts rightTexts held held' after)
    (h' : directory.TurnedBoth allowance left.name right.name leftTexts rightTexts held held' after')
    (type : String) (identity : List String) :
    after.object? type identity = after'.object? type identity := by
  rw [Directory.object?_eq, Directory.object?_eq]
  by_cases hleft : type = left.name ∧ sameIdentity leftTexts identity
  · obtain ⟨rfl, hsame⟩ := hleft
    have hown (d : Directory) : d.focus left.name identity = d.focus left.name leftTexts :=
      focus_congr (sameIdentity_symm hsame) _
    rw [hown, hown, h.left_own, h'.left_own]
  by_cases hright : type = right.name ∧ sameIdentity rightTexts identity
  · obtain ⟨rfl, hsame⟩ := hright
    have hown (d : Directory) : d.focus right.name identity = d.focus right.name rightTexts :=
      focus_congr (sameIdentity_symm hsame) _
    rw [hown, hown, h.right_own, h'.right_own]
  · have hl := not_and_or.1 hleft
    have hr := not_and_or.1 hright
    rw [h.others type identity hl hr, h'.others type identity hl hr]

theorem Confined.anything_of_target (hleft : left ∈ ObjectSchema.builtins)
    (htarget : target? left.toDeclaration first = some leftTexts) :
    (Ensure.run left.toDeclaration first).Confined anything left leftTexts := by
  obtain ⟨identity, hvalidate, hvalid⟩ :=
    (target?_eq_some (ObjectSchema.regular_of_mem_builtins hleft)).1 htarget
  exact confined_run hleft hvalid (fun _ _ _ _ _ _ ↦ trivial) hvalidate

theorem Confined.anything_of_none (htarget : target? left.toDeclaration first = none)
    (texts : List String) : (Ensure.run left.toDeclaration first).Confined anything left texts := by
  obtain ⟨failure, hrun⟩ := run_of_target?_eq_none htarget
  rw [hrun]
  trivial

/-- Runs for different objects are confined to different objects. A run without a target posts
nothing, so any identity does for it. -/
theorem exists_confined_apart (hleft : left ∈ ObjectSchema.builtins)
    (hright : right ∈ ObjectSchema.builtins)
    (hapart : ∀ leftTexts rightTexts, target? left.toDeclaration first = some leftTexts →
      target? right.toDeclaration second = some rightTexts →
        left.name ≠ right.name ∨ ¬sameIdentity leftTexts rightTexts) :
    ∃ leftTexts rightTexts,
      (Ensure.run left.toDeclaration first).Confined anything left leftTexts ∧
      (Ensure.run right.toDeclaration second).Confined anything right rightTexts ∧
        (left.name ≠ right.name ∨ ¬sameIdentity leftTexts rightTexts) := by
  cases hfirst : target? left.toDeclaration first with
  | some leftTexts =>
    cases hsecond : target? right.toDeclaration second with
    | some rightTexts =>
      exact ⟨leftTexts, rightTexts, Confined.anything_of_target hleft hfirst,
        Confined.anything_of_target hright hsecond, hapart _ _ hfirst hsecond⟩
    | none =>
      refine ⟨leftTexts, "" :: leftTexts, Confined.anything_of_target hleft hfirst,
        Confined.anything_of_none hsecond _, .inr fun h ↦ ?_⟩
      simpa using length_eq_of_sameIdentity h
  | none =>
    cases hsecond : target? right.toDeclaration second with
    | some rightTexts =>
      refine ⟨"" :: rightTexts, rightTexts, Confined.anything_of_none hfirst _,
        Confined.anything_of_target hright hsecond, .inr fun h ↦ ?_⟩
      simpa using length_eq_of_sameIdentity h
    | none =>
      refine ⟨[], [""], Confined.anything_of_none hfirst _, Confined.anything_of_none hsecond _,
        .inr fun h ↦ ?_⟩
      simpa using length_eq_of_sameIdentity h

/-- Two runs for objects that differ in type or identity: however they take turns, each has the
result, the events and the calls that it has alone, and every object is afterwards as after one run
and then the other, in either order. -/
theorem ensure_interleave {history : History} (reached : Reached history directory)
    (hleft : left ∈ ObjectSchema.builtins) (hright : right ∈ ObjectSchema.builtins)
    (hapart : ∀ leftTexts rightTexts, target? left.toDeclaration first = some leftTexts →
      target? right.toDeclaration second = some rightTexts →
        left.name ≠ right.name ∨ ¬sameIdentity leftTexts rightTexts) (turns : List Bool) :
    let firstRun := Ensure.run left.toDeclaration first
    let secondRun := Ensure.run right.toDeclaration second
    let both := interleave transport turns firstRun secondRun directory
    both.1 = ((run transport firstRun directory).1, (run transport secondRun directory).1) ∧
      ∀ type identity,
        both.2.object? type identity =
            (run transport secondRun (run transport firstRun directory).2).2.object? type identity ∧
          both.2.object? type identity =
            (run transport firstRun (run transport secondRun directory).2).2.object? type identity := by
  obtain ⟨leftTexts, rightTexts, hfirst, hsecond, hapart⟩ :=
    exists_confined_apart hleft hright hapart
  have hkept : directory.Kept anything := reached.kept.mono fun _ _ _ _ _ ↦ trivial
  have hapart' : right.name ≠ left.name ∨ ¬sameIdentity rightTexts leftTexts :=
    hapart.imp Ne.symm fun h hsame ↦ h (sameIdentity_symm hsame)
  obtain ⟨htranscripts, hboth⟩ :=
    interleave_confined hleft hright hapart turns hfirst hsecond hkept
  -- One run after the other is the interleaving without turns.
  have hforth := (interleave_confined hleft hright hapart [] hfirst hsecond hkept).2
  have hback := (interleave_confined hright hleft hapart' [] hsecond hfirst hkept).2.symm
  refine ⟨?_, fun type identity ↦ ⟨?_, ?_⟩⟩
  · rw [htranscripts, (run_confined hleft hfirst hkept).1, (run_confined hright hsecond hkept).1]
  · exact hboth.object?_eq hforth type identity
  · exact hboth.object?_eq hback type identity

/-- A user that is to exist. -/
def presentUser (uid : String) : DesiredState :=
  { DesiredState.ofState .present false with identity := .ofList [("uid", .scalar (.str uid))] }

/-- A search for the one user finds the other one, too. -/
theorem ensure_interleave_presentUser :
    let firstRun := Ensure.run ObjectSchema.user.toDeclaration (presentUser "al")
    let secondRun := Ensure.run ObjectSchema.user.toDeclaration (presentUser "Alice")
    let both := interleave transport [true, false, false, false, false, false, false, true]
      firstRun secondRun (ofRegistry .builtin)
    both.1 = ((run transport firstRun (ofRegistry .builtin)).1,
        (run transport secondRun (ofRegistry .builtin)).1) ∧
      ∀ type identity,
        both.2.object? type identity = (run transport secondRun
            (run transport firstRun (ofRegistry .builtin)).2).2.object? type identity ∧
          both.2.object? type identity = (run transport firstRun
            (run transport secondRun (ofRegistry .builtin)).2).2.object? type identity :=
  ensure_interleave .empty (by simp [ObjectSchema.builtins]) (by simp [ObjectSchema.builtins])
    (fun leftTexts rightTexts hleft hright ↦ by
      have hal : target? ObjectSchema.user.toDeclaration (presentUser "al") = some ["al"] := by
        decide +kernel
      have halice : target? ObjectSchema.user.toDeclaration (presentUser "Alice") =
          some ["Alice"] := by decide +kernel
      cases hal.symm.trans hleft
      cases halice.symm.trans hright
      exact .inr (by decide +kernel))
    [true, false, false, false, false, false, false, true]

end Directory

end DirectoryReconcile
