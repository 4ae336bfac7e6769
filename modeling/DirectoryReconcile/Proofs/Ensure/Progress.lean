import DirectoryReconcile.Proofs.Ensure.Replanning

/-!
# Progress

Once the first of the calls that are due was carried out, exactly the others are due. This is what
lets a run that was cut off go on where it stopped: a later run looks at the object again and plans
the calls that are left.
-/

namespace DirectoryReconcile

namespace Ensure

open Declaration Entry Difference Operation

variable {declaration : Declaration} {desired : DesiredState} {identity : Identity}
  {texts : List String} {allowed : String → Scalar → Prop} {changes : ChangeSet} {call : RemoteCall}
  {held held' : Option Entry} {result : Json} {rest calls : List RemoteCall}
  {adding : Bool} {method : String} {more : List (String × RemoteCall)}

variable (regular : declaration.Regular) (valid : Valid declaration desired identity texts)
  (hallowed : ∀ spec scalars, Asks declaration desired spec scalars → spec.isList = true →
    ∀ v ∈ scalars, allowed spec.name v)

include regular

/-- A call of a list method has values of some list. -/
theorem exists_of_get?_phaseTable {lists : Dict (List Scalar)}
    (h : (phaseTable declaration identity adding lists).get? method = some call) :
    ∃ spec ∈ declaration.attributes, belongs declaration adding method spec.name = true ∧
      ∃ values, lists.get? spec.name = some values := by
  by_contra hnone
  refine Option.some_ne_none call (h.symm.trans (phaseTable_eq_none regular identity ?_))
  intro name hbelongs
  obtain ⟨spec, hattribute, -⟩ := (Option.any_eq_true _ _).1 hbelongs
  obtain ⟨hspec, rfl⟩ := regular.attribute?_eq_some_iff.1 hattribute
  by_contra hvalues
  obtain ⟨values, hvalues⟩ := Option.ne_none_iff_exists'.1 hvalues
  exact hnone ⟨spec, hspec, hbelongs, values, hvalues⟩

/-- There is a call for every list. -/
theorem get?_eq_none_of_phaseTable {lists : Dict (List Scalar)}
    (hlists : Holdable declaration allowed lists) {spec : AttributeSpec}
    (hspec : spec ∈ declaration.attributes)
    (h : (phaseTable declaration identity adding lists).get? (listMethod declaration adding spec) =
      none) : lists.get? spec.name = none := by
  cases hvalues : lists.get? spec.name with
  | none => rfl
  | some values =>
    obtain ⟨hlist, hne, -⟩ := hlists spec hspec values hvalues
    unfold listMethod at h
    cases hroute : spec.route with
    | none =>
      rw [hroute, Option.map_none, Option.getD_none, get?_phaseTable_modify regular] at h
      obtain ⟨v, hv⟩ := List.exists_mem_of_ne_nil _ hne
      have hmem : assignment spec v ∈ assignments declaration lists :=
        mem_assignments.2
          ⟨spec.name, values, spec, hvalues, regular.attribute?_of_mem hspec, hroute, v, hv, rfl⟩
      cases htexts : assignments declaration lists with
      | nil => simp [htexts] at hmem
      | cons text others => simp [htexts] at h
    | some route =>
      have hrouted : spec ∈ routedBy declaration adding (route.method adding) :=
        mem_routedBy.2 ⟨hspec, route, hroute, rfl⟩
      have hmethod : route.method adding ≠ declaration.methods.modify := fun heq ↦
        not_mem_commandMethods_of_routed regular hrouted
          (heq ▸ modify_mem_commandMethods declaration)
      rw [hroute, Option.map_some, Option.getD_some, get?_phaseTable_of_ne identity lists hmethod,
        routedCalls] at h
      have hgathered : Gathered declaration (declaration.positional identity) adding
          (route.method adding) lists.entries _ := gathered_foldl regular lists.nodup_keys
      rcases hgathered with ⟨-, hnot⟩ | ⟨call, hcall, -⟩
      · exact absurd ((lists.contains_iff spec.name).1 (by simp [Dict.contains, hvalues]))
          (hnot spec hrouted)
      · rw [h] at hcall
        simp at hcall

/-- Only an object that its first list value creates is gone after a call of a list method. -/
theorem implicit_of_phaseCall (spells : declaration.Spells identity texts)
    {lists : Dict (List Scalar)} (hnamed : NamedBy texts held)
    (hcall : (phaseTable declaration identity adding lists).get? method = some call)
    (h : Answers declaration held call result none) :
    declaration.creation = .implicit ∧ adding = false := by
  obtain ⟨hid, ⟨rfl, rfl, hoperation⟩ | ⟨-, -, hoperation⟩⟩ := phase_cases regular spells hcall
  · cases h.leaves hoperation (by simp) hid hnamed
  · obtain ⟨attrs, -, ⟨entry, hentry, -⟩ | ⟨-, hadding, hemptied⟩⟩ :=
      attrs_of_lists (h.leaves hoperation (by cases adding <;> simp) hid hnamed)
    · simp at hentry
    · exact ⟨implicit_of_isEmptied hemptied, hadding⟩

omit regular in
theorem creates_of_isSome {action : Action} (h : action = .modify ∨ declaration.creation = .implicit) :
    creates declaration action = false := by
  rcases h with rfl | himplicit
  · rfl
  · simp [creates, himplicit]

omit regular in
/-- When neither scalars nor the flag are left, the calls that are due are those of the lists. -/
theorem callsOf_lists (hscalars : changes.scalars = ∅)
    (hcreates : creates declaration (actionOn held) = false)
    (hflag : flagCall declaration identity desired.state held = none) :
    callsOf declaration desired identity held changes =
      phaseCalls declaration identity true changes.listAdds ++
        phaseCalls declaration identity false changes.listRemoves := by
  have hprimary : primaryCall declaration identity (actionOn held) changes = none :=
    primaryCall_eq_none_iff.2 ⟨hscalars, hcreates⟩
  unfold callsOf
  rw [hprimary, hflag, afterPrimary_eq hscalars hcreates, listCalls]
  rfl

/-- Which of the calls that are due comes first, and what is due after it. -/
inductive Next (declaration : Declaration) (desired : DesiredState) (identity : Identity) :
    Option Entry → RemoteCall → List RemoteCall → Prop
  | whole {entry : Entry} (hstate : desired.state = .absent)
      (hlists : desired.hasLists declaration = false) :
    Next declaration desired identity (some entry) (removeCall declaration identity) []
  | primary {held : Option Entry} {changes : ChangeSet} {call : RemoteCall}
      (hstate : desired.state = .absent → held.isSome ∧ desired.hasLists declaration = true)
      (hwritable : desired.state ≠ .absent → Writable declaration desired held)
      (hplanned : Planned declaration desired (actionOn held) held changes)
      (hprimary : primaryCall declaration identity (actionOn held) changes = some call) :
    Next declaration desired identity held call
      ((flagCall declaration identity desired.state held).toList ++
        listCalls declaration identity (afterPrimary declaration (actionOn held) changes))
  | flag {held : Option Entry} {changes : ChangeSet} {call : RemoteCall}
      (hstate : desired.state = .absent → held.isSome ∧ desired.hasLists declaration = true)
      (hwritable : desired.state ≠ .absent → Writable declaration desired held)
      (hplanned : Planned declaration desired (actionOn held) held changes)
      (hscalars : changes.scalars = ∅)
      (hflag : flagCall declaration identity desired.state held = some call) :
    Next declaration desired identity held call (listCalls declaration identity changes)
  | lists {held : Option Entry} {changes : ChangeSet} {adding : Bool} {method : String}
      {call : RemoteCall} {more : List (String × RemoteCall)}
      (hstate : desired.state = .absent → held.isSome ∧ desired.hasLists declaration = true)
      (hwritable : desired.state ≠ .absent → Writable declaration desired held)
      (hplanned : Planned declaration desired (actionOn held) held changes)
      (hscalars : changes.scalars = ∅) (hcreates : creates declaration (actionOn held) = false)
      (hflag : flagCall declaration identity desired.state held = none)
      (hadds : adding = false → changes.listAdds = ∅)
      (hentries : (phaseTable declaration identity adding (listsOf adding changes)).entries =
        (method, call) :: more) :
    Next declaration desired identity held call (more.map (·.2) ++
      if adding then phaseCalls declaration identity false changes.listRemoves else [])

/-- No call is due for lists when there are no lists to change. -/
theorem eq_empty_of_phaseTable {lists : Dict (List Scalar)}
    (hlists : Holdable declaration allowed lists)
    (hundeclared : ∀ name, declaration.attribute? name = none → lists.get? name = none)
    (h : (phaseTable declaration identity adding lists).entries = []) : lists = ∅ := by
  refine (dict_eq_empty_iff regular hundeclared).2 fun spec hspec ↦ ?_
  have hget : (phaseTable declaration identity adding lists).get?
      (listMethod declaration adding spec) = none := by rw [Dict.get?, h, Dict.lookupEntry]
  exact get?_eq_none_of_phaseTable regular hlists hspec hget

include valid hallowed in
theorem Due.next (hdue : Due declaration desired identity held (call :: rest)) :
    Next declaration desired identity held call rest := by
  generalize hcalls : call :: rest = calls at hdue
  cases hdue with
  | gone hstate => simp at hcalls
  | whole hstate hlists =>
    obtain ⟨rfl, rfl⟩ := List.cons.inj hcalls
    exact .whole hstate hlists
  | @changes _ changes hstate hwritable hplanned =>
    unfold callsOf at hcalls
    cases hprimary : primaryCall declaration identity (actionOn held) changes with
    | some primary =>
      rw [hprimary] at hcalls
      obtain ⟨rfl, rfl⟩ := List.cons.inj hcalls
      exact .primary hstate hwritable hplanned hprimary
    | none =>
      obtain ⟨hscalars, hcreates⟩ := primaryCall_eq_none_iff.1 hprimary
      rw [hprimary, afterPrimary_eq hscalars hcreates] at hcalls
      cases hflag : flagCall declaration identity desired.state held with
      | some flagging =>
        rw [hflag] at hcalls
        obtain ⟨rfl, rfl⟩ := List.cons.inj hcalls
        exact .flag hstate hwritable hplanned hscalars hflag
      | none =>
        rw [hflag, listCalls, phaseCalls_eq] at hcalls
        cases hadds : (phaseTable declaration identity true changes.listAdds).entries with
        | cons entry more =>
          unfold Dict.values at hcalls
          rw [hadds] at hcalls
          obtain ⟨rfl, rfl⟩ := List.cons.inj hcalls
          exact @Next.lists _ _ _ _ _ true _ _ _ hstate hwritable hplanned hscalars hcreates hflag
            (by simp) hadds
        | nil =>
          unfold Dict.values at hcalls
          rw [hadds, phaseCalls_eq] at hcalls
          have hnone : changes.listAdds = ∅ := eq_empty_of_phaseTable regular
            (hplanned.holdable_adds regular valid hallowed)
            (fun name hname ↦ (hplanned.undeclared name hname).1) hadds
          cases hremoves : (phaseTable declaration identity false changes.listRemoves).entries with
          | nil => simp [Dict.values, hremoves] at hcalls
          | cons entry more =>
            unfold Dict.values at hcalls
            rw [hremoves] at hcalls
            obtain ⟨rfl, rfl⟩ := List.cons.inj hcalls
            have hnext := @Next.lists _ _ _ _ _ false _ _ _ hstate hwritable hplanned hscalars hcreates
              hflag (fun _ ↦ hnone) hremoves
            rwa [if_neg Bool.false_ne_true, List.append_nil] at hnext

/-- An object is not gone for good while values of its lists are left to be removed. -/
theorem more_eq_nil_of_gone
    (hplanned : Planned declaration desired (actionOn held) held changes)
    (hremoves : Holdable declaration allowed changes.listRemoves)
    (hentries : (phaseTable declaration identity false changes.listRemoves).entries =
      (method, call) :: more)
    (h : Relisted declaration false method changes.listRemoves held none) : more = [] := by
  cases hmore : more with
  | nil => rfl
  | cons other others =>
    obtain ⟨method', call'⟩ := other
    have hother : (phaseTable declaration identity false changes.listRemoves).get? method' =
        some call' := (Dict.mem_entries_iff _).1 (by simp [hentries, hmore])
    have hne : method ≠ method' := by
      have hnodup := (phaseTable declaration identity false changes.listRemoves).nodup_keys
      unfold Dict.keys at hnodup
      rw [hentries, hmore] at hnodup
      simp only [List.map_cons, List.nodup_cons, List.mem_cons, not_or] at hnodup
      exact hnodup.1.1
    obtain ⟨spec, hspec, hbelongs, values, hvalues⟩ := exists_of_get?_phaseTable regular hother
    obtain ⟨hlist, hvalued, -⟩ := hremoves spec hspec values hvalues
    obtain ⟨v, hv⟩ := List.exists_mem_of_ne_nil _ hvalued
    have hremovesAt := hplanned.removes spec hspec
    rw [hvalues, if_pos hlist] at hremovesAt
    have hstored := (mem_of_removesAt hremovesAt.symm).2.1 v hv
    have hnot : ¬belongs declaration false method spec.name = true := by
      rw [belongs, regular.attribute?_of_mem hspec, Option.any_some, decide_eq_true_eq] at hbelongs ⊢
      exact fun heq ↦ hne (heq.symm.trans hbelongs)
    have hgone := (h spec hspec (regular.list_text spec hspec hlist).2.1 v).2
    unfold Moved at hgone
    rw [if_neg Bool.false_ne_true] at hgone
    exact absurd (hgone ⟨hstored, fun hboth ↦ hnot hboth.1⟩) List.not_mem_nil

variable (hdistinct : Distinguishes allowed) (hnamed : NamedBy texts held)
  (hheld : ∀ entry ∈ held, entry.Sound declaration allowed)
  (hheld' : ∀ entry ∈ held', entry.Sound declaration allowed)

include valid hallowed hdistinct hnamed hheld hheld'

/-- The first call of a phase changes the lists of its method as planned. -/
theorem relisted_of_call (hplanned : Planned declaration desired (actionOn held) held changes)
    (hcall : (phaseTable declaration identity adding (listsOf adding changes)).get? method = some call)
    (h : Answers declaration held call result held') :
    Relisted declaration adding method (listsOf adding changes) held held' ∧
      SameScalars declaration held held' := by
  have hlists : Holdable declaration allowed (listsOf adding changes) := by
    cases adding with
    | true => exact hplanned.holdable_adds regular valid hallowed
    | false => exact hplanned.holdable_removes regular hheld
  have hrelisted : Relisted declaration adding method (listsOf adding changes) held held' :=
    fun spec hspec hidentity v ↦
      mem_stock_phaseCall regular valid.spells hdistinct hlists hnamed hheld hcall h hspec hidentity
  exact ⟨hrelisted, hrelisted.sameScalars regular hlists hheld hheld'⟩

omit hallowed hdistinct hheld hheld' in
/-- Calls of list methods create and remove only objects that consist of lists. -/
theorem actionOn_after_lists {lists : Dict (List Scalar)}
    (hcreates : creates declaration (actionOn held) = false)
    (hcall : (phaseTable declaration identity adding lists).get? method = some call)
    (h : Answers declaration held call result held') :
    actionOn held' = actionOn held ∨ declaration.creation = .implicit := by
  cases held' with
  | none => exact .inr (implicit_of_phaseCall regular valid.spells hnamed hcall h).1
  | some entry =>
    cases held with
    | some found => exact .inl rfl
    | none =>
      right
      cases hcase : declaration.creation with
      | implicit => rfl
      | explicit => simp [creates, actionOn, hcase] at hcreates

/-- After the first call of a phase its other calls are due, and those of the next phase. -/
theorem Due.after_lists
    (hstate : desired.state = .absent → held.isSome ∧ desired.hasLists declaration = true)
    (hwritable : desired.state ≠ .absent → Writable declaration desired held)
    (hplanned : Planned declaration desired (actionOn held) held changes)
    (hscalars : changes.scalars = ∅) (hcreates : creates declaration (actionOn held) = false)
    (hflag : flagCall declaration identity desired.state held = none)
    (hadds : adding = false → changes.listAdds = ∅)
    (hentries : (phaseTable declaration identity adding (listsOf adding changes)).entries =
      (method, call) :: more)
    (h : Answers declaration held call result held') :
    Due declaration desired identity held' (more.map (·.2) ++
      if adding then phaseCalls declaration identity false changes.listRemoves else []) := by
  have hcall : (phaseTable declaration identity adding (listsOf adding changes)).get? method =
      some call := (Dict.mem_entries_iff _).1 (by rw [hentries]; exact List.mem_cons_self)
  have hremovable := hplanned.holdable_removes regular hheld
  obtain ⟨hrelisted, hsame⟩ := relisted_of_call regular valid hallowed hdistinct hnamed hheld hheld'
    hplanned hcall h
  have haction := actionOn_after_lists regular valid hnamed hcreates hcall h
  have hcreates' : creates declaration (actionOn held') = false := by
    rcases haction with haction | himplicit
    · rw [haction, hcreates]
    · exact creates_of_isSome (.inr himplicit)
  have hflag' : flagCall declaration identity desired.state held' = none := by
    rw [flagCall_congr regular (fun spec hspec hflag ↦ hsame.flag regular hspec hflag), hflag]
  have hplanned' := hplanned.after_lists regular hscalars hadds hrelisted hsame haction
  have hcalls : callsOf declaration desired identity held'
      (withoutLists declaration adding method changes) = more.map (·.2) ++
        if adding then phaseCalls declaration identity false changes.listRemoves else [] := by
    have hleft : (withoutLists declaration adding method changes).scalars = ∅ := by
      rw [← hscalars]
      cases adding <;> rfl
    have htail := phaseCalls_tail regular identity hentries fun name ↦
      get?_withoutLists adding method name changes
    rw [callsOf_lists hleft hcreates' hflag', ← htail]
    cases adding with
    | true => rfl
    | false =>
      have hempty : (withoutLists declaration false method changes).listAdds = ∅ := hadds rfl
      rw [hempty, phaseCalls_eq, phaseTable_empty]
      exact (List.append_nil _).symm
  by_cases hgone : desired.state = .absent ∧ held' = none
  · obtain ⟨habsent, rfl⟩ := hgone
    obtain ⟨-, rfl⟩ := implicit_of_phaseCall regular valid.spells hnamed hcall h
    obtain rfl := more_eq_nil_of_gone regular hplanned hremovable hentries hrelisted
    exact .gone habsent
  · rw [← hcalls]
    refine .changes (fun habsent ↦ ⟨?_, (hstate habsent).2⟩) (fun hpresent ↦ ?_) hplanned'
    · exact Option.isSome_iff_ne_none.2 fun hnone ↦ hgone ⟨habsent, hnone⟩
    · exact writable_left regular hsame haction valid (hwritable hpresent)

omit hallowed hdistinct hheld hheld' in
/-- After the first call of all, which creates the object or assigns scalars, the flag and the lists
are left. -/
theorem Due.after_primary
    (hstate : desired.state = .absent → held.isSome ∧ desired.hasLists declaration = true)
    (hwritable : desired.state ≠ .absent → Writable declaration desired held)
    (hplanned : Planned declaration desired (actionOn held) held changes)
    (hprimary : primaryCall declaration identity (actionOn held) changes = some call)
    (h : Answers declaration held call result held') :
    Due declaration desired identity held'
      ((flagCall declaration identity desired.state held).toList ++
        listCalls declaration identity (afterPrimary declaration (actionOn held) changes)) := by
  obtain ⟨hcreates, entry, verb, rfl, -, hstock⟩ :=
    stock_primaryCall regular valid.spells (hplanned.comes regular valid) hnamed hprimary h
  have hscalars : (afterPrimary declaration (actionOn held) changes).scalars = ∅ :=
    afterPrimary_scalars (actionOn held)
  have hflag : flagCall declaration identity desired.state (some entry) =
      flagCall declaration identity desired.state held :=
    flagCall_congr regular (fun spec hspec hflag ↦
      flag_after_primary regular hplanned hstock hspec hflag) identity desired.state
  have hcalls : callsOf declaration desired identity (some entry)
      (afterPrimary declaration (actionOn held) changes) =
        (flagCall declaration identity desired.state held).toList ++
          listCalls declaration identity (afterPrimary declaration (actionOn held) changes) := by
    unfold callsOf
    rw [primaryCall_eq_none_iff.2 ⟨hscalars, rfl⟩, hflag, afterPrimary_eq hscalars rfl]
    rfl
  rw [← hcalls]
  refine .changes (fun habsent ↦ ⟨rfl, (hstate habsent).2⟩) (fun hpresent ↦ ?_)
    (hplanned.after_primary regular hcreates hstock rfl)
  exact writable_after_primary regular hplanned hcreates hstock valid hpresent rfl
    (hwritable hpresent)

omit hallowed hdistinct hheld hheld' in
/-- After the call that sets the flag the lists are left. -/
theorem Due.after_flag
    (hstate : desired.state = .absent → held.isSome ∧ desired.hasLists declaration = true)
    (hwritable : desired.state ≠ .absent → Writable declaration desired held)
    (hplanned : Planned declaration desired (actionOn held) held changes)
    (hscalars : changes.scalars = ∅)
    (hflag : flagCall declaration identity desired.state held = some call)
    (h : Answers declaration held call result held') :
    Due declaration desired identity held' (listCalls declaration identity changes) := by
  obtain ⟨hsome, hsome', hflag', hstock⟩ := stock_flagCall regular valid hnamed hflag h
  obtain ⟨found, rfl⟩ := Option.isSome_iff_exists.1 hsome
  obtain ⟨entry, rfl⟩ := Option.isSome_iff_exists.1 hsome'
  have hcalls : callsOf declaration desired identity (some entry) changes =
      listCalls declaration identity changes := callsOf_lists hscalars rfl hflag'
  rw [← hcalls]
  exact .changes (fun habsent ↦ ⟨rfl, (hstate habsent).2⟩)
    (fun hpresent ↦ writable_after_flag regular hstock valid rfl (hwritable hpresent))
    (hplanned.after_flag regular hstock)

/-- The calls of a run one by one: once the first was carried out, the others are due. -/
theorem Due.tail (hdue : Due declaration desired identity held (call :: rest))
    (h : Answers declaration held call result held') : Due declaration desired identity held' rest := by
  cases hdue.next regular valid hallowed with
  | whole hstate hlists =>
    rw [held_of_removeCall regular valid.spells hnamed h]
    exact .gone hstate
  | primary hstate hwritable hplanned hprimary =>
    exact Due.after_primary regular valid hnamed hstate hwritable hplanned hprimary h
  | flag hstate hwritable hplanned hscalars hflag =>
    exact Due.after_flag regular valid hnamed hstate hwritable hplanned hscalars hflag h
  | lists hstate hwritable hplanned hscalars hcreates hflag hadds hentries =>
    exact Due.after_lists regular valid hallowed hdistinct hnamed hheld hheld' hstate hwritable
      hplanned hscalars hcreates hflag hadds hentries h

end Ensure

end DirectoryReconcile
