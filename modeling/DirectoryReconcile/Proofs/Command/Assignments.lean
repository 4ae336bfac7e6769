import DirectoryReconcile.Command.Assignments
import DirectoryReconcile.Proofs.Dict
import DirectoryReconcile.Proofs.Steps
import DirectoryReconcile.Proofs.Text.Blank

/-!
# Collecting assignments by key

The arguments of a command are read if each of them is an assignment, and what a key gets then
depends on its own arguments alone: it is their values, in their order. So arguments of different
keys may stand in any order.
-/

namespace DirectoryReconcile.Assignments

/-- An argument gives a value to a key: the key stands before the first equals sign, with nothing
but blanks around it, and the value is all that follows. -/
structure Assigns (argument key value : String) : Prop where
  text : ∃ lead trail, argument.toList = lead ++ key.toList ++ trail ++ '=' :: value.toList ∧
    ∀ c ∈ lead ++ trail, Text.isBlank c
  first : '=' ∉ key.toList
  bare : Text.IsBare key
  nonempty : key ≠ ""

/-- An argument with something that is not blank before its first equals sign. -/
def IsAssignment (argument : String) : Prop :=
  ∃ before after : String, argument = before ++ "=" ++ after ∧ '=' ∉ before.toList ∧
    ∃ c ∈ before.toList, ¬Text.isBlank c

def AssignsTo (key argument : String) : Prop := ∃ value, Assigns argument key value

/-- What is said against an argument that is no assignment. -/
def objectionTo (argument : String) : Objection :=
  if '=' ∈ argument.toList then .emptyKey else .noAssignment

/-- The values of a key, in the order of their assignments. -/
def valuesOf (key : String) (assignments : List (String × String)) : List String :=
  (assignments.filter fun assignment ↦ assignment.1 = key).map (·.2)

/-- What a key has that was given these values. -/
def held : List String → Option AttrValue
  | [] => none
  | [value] => some (.scalar (.str value))
  | values => some (.list (values.map .str))

variable {argument key value : String} {failure : Failure}

/-! ## Single arguments -/

theorem assigns_iff : Assigns argument key value ↔ ∃ before : String,
    argument = before ++ "=" ++ value ∧ '=' ∉ before.toList ∧ Text.trim before = key ∧
      key ≠ "" := by
  constructor
  · rintro ⟨⟨lead, trail, htext, hblank⟩, hfirst, hbare, hne⟩
    -- The equals sign is not blank, so the first one is not in the padding either.
    have hpadding : '=' ∉ lead ++ trail := fun hmem ↦ absurd (hblank '=' hmem) (by decide)
    obtain ⟨hlead, htrail⟩ := not_or.1 (mt List.mem_append.2 hpadding)
    refine ⟨String.ofList (lead ++ key.toList ++ trail), ?_, ?_, ?_, hne⟩
    · exact String.toList_inj.1 (by simp [htext])
    · simp [hlead, hfirst, htrail]
    · exact Text.trim_eq_iff.2 ⟨⟨lead, trail, String.toList_ofList, hblank⟩, hbare⟩
  · rintro ⟨before, rfl, hbefore, htrim, hne⟩
    obtain ⟨⟨lead, trail, hpadded, hblank⟩, hbare⟩ := Text.trim_eq_iff.1 htrim
    refine ⟨⟨lead, trail, by simp [hpadded], hblank⟩, fun hmem ↦ hbefore ?_, hbare, hne⟩
    rw [hpadded]
    exact List.mem_append_left _ (List.mem_append_right _ hmem)

theorem exists_assigns_iff : (∃ key value, Assigns argument key value) ↔
    IsAssignment argument := by
  have hblank {before : String} :
      (∃ c ∈ before.toList, ¬Text.isBlank c) ↔ Text.trim before ≠ "" := by
    simp [Text.trim_eq_empty_iff]
  simp only [IsAssignment, assigns_iff, hblank]
  constructor
  · rintro ⟨_, after, before, htext, hbefore, rfl, hne⟩
    exact ⟨before, after, htext, hbefore, hne⟩
  · rintro ⟨before, after, htext, hbefore, hne⟩
    exact ⟨_, after, before, htext, hbefore, rfl, hne⟩

theorem split_of_not_mem (h : '=' ∉ argument.toList) :
    split argument = .error (.validation argument .noAssignment) := by
  rw [split, Text.splitFirst_eq_none_iff.2 h]

theorem split_of_text {before : String} (htext : argument = before ++ "=" ++ value)
    (hbefore : '=' ∉ before.toList) : split argument =
      if Text.trim before = "" then .error (.validation argument .emptyKey)
      else .ok (Text.trim before, value) := by
  have hsplit : Text.splitFirst '=' argument = some (before, value) :=
    Text.splitFirst_eq_some_iff.2 ⟨htext, hbefore⟩
  rw [split, hsplit]

theorem exists_before_of_mem (h : '=' ∈ argument.toList) : ∃ before after : String,
    argument = before ++ "=" ++ after ∧ '=' ∉ before.toList := by
  obtain ⟨before, after, htext, hbefore⟩ := List.eq_append_cons_of_mem h
  exact ⟨.ofList before, .ofList after, String.toList_inj.1 (by simp [htext]),
    by simpa using hbefore⟩

theorem split_eq_ok_iff {assignment : String × String} :
    split argument = .ok assignment ↔ Assigns argument assignment.1 assignment.2 := by
  obtain ⟨key, value⟩ := assignment
  rw [assigns_iff]
  constructor
  · intro h
    by_cases hmem : '=' ∈ argument.toList
    · obtain ⟨before, after, htext, hbefore⟩ := exists_before_of_mem hmem
      rw [split_of_text htext hbefore] at h
      split at h
      next => cases h
      next hne =>
        cases h
        exact ⟨before, htext, hbefore, rfl, hne⟩
    · rw [split_of_not_mem hmem] at h
      cases h
  · rintro ⟨before, htext, hbefore, rfl, hne⟩
    rw [split_of_text htext hbefore, if_neg hne]

theorem exists_split_iff : (∃ assignment, split argument = .ok assignment) ↔
    IsAssignment argument := by
  simp only [split_eq_ok_iff, ← exists_assigns_iff, Prod.exists]

theorem failure_of_split (h : split argument = .error failure) :
    failure = .validation argument (objectionTo argument) := by
  unfold objectionTo
  split
  next hmem =>
    obtain ⟨before, after, htext, hbefore⟩ := exists_before_of_mem hmem
    rw [split_of_text htext hbefore] at h
    split at h <;> cases h
    rfl
  next hmem =>
    rw [split_of_not_mem hmem] at h
    exact (Except.error.inj h).symm

theorem split_eq_error_iff : split argument = .error failure ↔
    ¬IsAssignment argument ∧ failure = .validation argument (objectionTo argument) := by
  rw [← exists_split_iff]
  constructor
  · intro h
    refine ⟨?_, failure_of_split h⟩
    rintro ⟨assignment, hok⟩
    cases h.symm.trans hok
  · rintro ⟨hnot, rfl⟩
    cases h : split argument with
    | ok assignment => exact absurd ⟨assignment, h⟩ hnot
    | error failure => rw [failure_of_split h]

theorem Assigns.unique {key' value' : String} (h : Assigns argument key value)
    (h' : Assigns argument key' value') : (key', value') = (key, value) :=
  Except.ok.inj ((split_eq_ok_iff.2 h').symm.trans (split_eq_ok_iff.2 h))

theorem Assigns.assignsTo_iff {other : String} (h : Assigns argument key value) :
    AssignsTo other argument ↔ key = other := by
  constructor
  · rintro ⟨value', h'⟩
    exact (Prod.mk.inj (h.unique h')).1.symm
  · rintro rfl
    exact ⟨value, h⟩

instance (key : String) : DecidablePred (AssignsTo key) := fun argument ↦
  match h : split argument with
  | .ok assignment => decidable_of_iff _ (split_eq_ok_iff.1 h).assignsTo_iff.symm
  | .error _ => .isFalse fun ⟨value, hassigns⟩ ↦ by
    have hok : split argument = .ok (key, value) := split_eq_ok_iff.2 hassigns
    cases h.symm.trans hok

/-! ## Collecting the values -/

/-- Every key has its values among the assignments made so far, and no key is there without one. -/
def Gathers (values : Dict (List String)) (made : List (String × String)) : Prop :=
  ∀ key, values.get? key = if valuesOf key made = [] then none else some (valuesOf key made)

variable {values : Dict (List String)} {made : List (String × String)}

theorem valuesOf_append (key : String) (first second : List (String × String)) :
    valuesOf key (first ++ second) = valuesOf key first ++ valuesOf key second := by
  simp [valuesOf]

theorem Gathers.collect (h : Gathers values made) (assignment : String × String) :
    Gathers (collect values assignment) (made ++ [assignment]) := by
  intro key
  rw [Assignments.collect, Dict.get?_insert, valuesOf_append]
  by_cases hkey : assignment.1 = key
  · have hone : valuesOf key [assignment] = [assignment.2] := by simp [valuesOf, hkey]
    have hheld : (values.get? key).getD [] = valuesOf key made := by
      rw [h key]
      split <;> simp_all
    rw [if_pos hkey, hkey, hheld, hone, if_neg (by simp)]
  · have hnone : valuesOf key [assignment] = [] := by simp [valuesOf, hkey]
    rw [if_neg hkey, hnone, List.append_nil, h key]

theorem Gathers.foldl (h : Gathers values made) (assignments : List (String × String)) :
    Gathers (assignments.foldl Assignments.collect values) (made ++ assignments) := by
  induction assignments generalizing values made with
  | nil => simpa using h
  | cons assignment rest ih => simpa using ih (h.collect assignment)

theorem held_eq (texts : List String) :
    held texts = (if texts = [] then none else some texts).map ofTexts := by
  match texts with
  | [] | [_] | _ :: _ :: _ => rfl

theorem get?_collected (assignments : List (String × String)) (key : String) :
    ((assignments.foldl collect ∅).mapValues ofTexts).get? key =
      held (valuesOf key assignments) := by
  have hempty : Gathers ∅ [] := fun _ ↦ rfl
  rw [Dict.get?_mapValues, hempty.foldl assignments key, held_eq, List.nil_append]

/-! ## All arguments -/

/-- The arguments make these assignments, one each. -/
abbrev AssignAll : List String → List (String × String) → Prop :=
  List.Forall₂ fun argument assignment ↦ Assigns argument assignment.1 assignment.2

variable {arguments others : List String} {assignments : List (String × String)}
  {collected : Dict AttrValue}

theorem mapM_split_eq_ok_iff : arguments.mapM split = .ok assignments ↔
    AssignAll arguments assignments := by
  simp only [mapM_eq_ok, split_eq_ok_iff]

theorem parse_eq_ok_iff : parse arguments = .ok collected ↔ ∃ assignments,
    AssignAll arguments assignments ∧
      ∀ key, collected.get? key = held (valuesOf key assignments) := by
  unfold parse
  simp only [bind_eq_ok, mapM_split_eq_ok_iff]
  refine exists_congr fun assignments ↦ and_congr_right fun _ ↦ ?_
  constructor
  · intro h
    cases h
    exact get?_collected assignments
  · intro h
    refine congrArg Except.ok (Dict.ext fun key ↦ ?_)
    rw [get?_collected, h key]

theorem exists_parse_iff : (∃ collected, parse arguments = .ok collected) ↔
    ∀ argument ∈ arguments, IsAssignment argument := by
  simp only [← exists_split_iff, ← exists_mapM_iff, parse, bind_eq_ok]
  constructor
  · rintro ⟨_, assignments, h, -⟩
    exact ⟨assignments, h⟩
  · rintro ⟨assignments, h⟩
    exact ⟨_, assignments, h, rfl⟩

theorem parse_eq_error_iff : parse arguments = .error failure ↔
    ∃ before argument after, arguments = before ++ argument :: after ∧
      (∀ other ∈ before, IsAssignment other) ∧ ¬IsAssignment argument ∧
      failure = .validation argument (objectionTo argument) := by
  simp only [← split_eq_error_iff]
  simp only [← exists_split_iff, ← mapM_eq_error, parse, bind_eq_error]
  constructor
  · rintro (h | ⟨_, _, hpure⟩)
    · exact h
    · cases hpure
  · exact .inl

/-- The assignments of a key are those of its own arguments. -/
theorem AssignAll.filter (h : AssignAll arguments assignments) (key : String) :
    AssignAll (arguments.filter (AssignsTo key))
      (assignments.filter fun assignment ↦ assignment.1 = key) :=
  List.rel_filter (fun _ _ hassigns ↦ by simpa using hassigns.assignsTo_iff) h

theorem AssignAll.unique {made : List (String × String)} (h : AssignAll arguments assignments)
    (h' : AssignAll arguments made) : made = assignments :=
  List.right_unique_forall₂' (fun _ _ _ hfirst hsecond ↦ hsecond.unique hfirst) h' h

theorem parse_of_perm (hperm : others.Perm arguments)
    (hkeys : ∀ key, others.filter (AssignsTo key) = arguments.filter (AssignsTo key))
    (h : parse arguments = .ok collected) : parse others = .ok collected := by
  obtain ⟨assignments, hmake, hget⟩ := parse_eq_ok_iff.1 h
  have hall := exists_parse_iff.1 ⟨collected, h⟩
  obtain ⟨_, hothers⟩ := exists_parse_iff.2 fun argument hmem ↦ hall argument (hperm.mem_iff.1 hmem)
  obtain ⟨made, hmade, -⟩ := parse_eq_ok_iff.1 hothers
  refine parse_eq_ok_iff.2 ⟨made, hmade, fun key ↦ ?_⟩
  -- The arguments of a key are the same list on both sides, so they assign the same values.
  have hkey := hmade.filter key
  rw [hkeys key] at hkey
  rw [hget key, valuesOf, valuesOf, (hmake.filter key).unique hkey]

/-- Arguments are read exactly if each has more than blanks before its first equals sign; otherwise
the first one without is named. A key has what its own arguments give it, in their order, a list if
there are several. So it does not matter how the arguments of different keys are mixed. -/
theorem parse_collects_by_key (arguments : List String) :
    ((∃ collected, parse arguments = .ok collected) ↔
        ∀ argument ∈ arguments, IsAssignment argument) ∧
      (∀ failure, parse arguments = .error failure ↔
        ∃ before argument after, arguments = before ++ argument :: after ∧
          (∀ other ∈ before, IsAssignment other) ∧ ¬IsAssignment argument ∧
          failure = .validation argument (objectionTo argument)) ∧
      (∀ collected, parse arguments = .ok collected ↔ ∃ assignments,
        AssignAll arguments assignments ∧
          ∀ key, collected.get? key = held (valuesOf key assignments)) ∧
      ∀ others collected, others.Perm arguments →
        (∀ key, others.filter (AssignsTo key) = arguments.filter (AssignsTo key)) →
        parse arguments = .ok collected → parse others = .ok collected :=
  ⟨exists_parse_iff, fun _ ↦ parse_eq_error_iff, fun _ ↦ parse_eq_ok_iff,
    fun _ _ ↦ parse_of_perm⟩

/-- A list of two is kept in order when another key comes in between, blanks around the key do not
count, and further equals signs belong to the value. -/
theorem parse_collects_by_key_mixed :
    ["cn=ops", " member =a=b", "member=c"].Perm [" member =a=b", "cn=ops", "member=c"] ∧
      (∀ key, ["cn=ops", " member =a=b", "member=c"].filter (AssignsTo key) =
        [" member =a=b", "cn=ops", "member=c"].filter (AssignsTo key)) ∧
      parse [" member =a=b", "cn=ops", "member=c"] = .ok (.ofList
        [("cn", .scalar (.str "ops")), ("member", .list [.str "a=b", .str "c"])]) ∧
      parse ["cn=ops", " member =a=b", "member=c"] = .ok (.ofList
        [("cn", .scalar (.str "ops")), ("member", .list [.str "a=b", .str "c"])]) := by
  have hcn : Assigns "cn=ops" "cn" "ops" := split_eq_ok_iff.1
    (show split "cn=ops" = .ok ("cn", "ops") by decide +kernel)
  have hmember : Assigns " member =a=b" "member" "a=b" := split_eq_ok_iff.1
    (show split " member =a=b" = .ok ("member", "a=b") by decide +kernel)
  have hperm := List.Perm.swap " member =a=b" "cn=ops" ["member=c"]
  have hkeys (key : String) : ["cn=ops", " member =a=b", "member=c"].filter (AssignsTo key) =
      [" member =a=b", "cn=ops", "member=c"].filter (AssignsTo key) := by
    by_cases hkey : "cn" = key
    · subst hkey
      simp [List.filter_cons, hcn.assignsTo_iff, hmember.assignsTo_iff]
    · simp [List.filter_cons, hcn.assignsTo_iff, hmember.assignsTo_iff, hkey]
  have hparse : parse [" member =a=b", "cn=ops", "member=c"] = .ok (.ofList
      [("cn", .scalar (.str "ops")), ("member", .list [.str "a=b", .str "c"])]) := by
    decide +kernel
  exact ⟨hperm, hkeys, hparse, (parse_collects_by_key _).2.2.2 _ _ hperm hkeys hparse⟩

/-- A key of blanks is none, and what follows the first argument at fault is not looked at. -/
example : parse ["cn=ops", " =x", "y"] = .error (.validation " =x" .emptyKey) := by decide +kernel

end DirectoryReconcile.Assignments
