import DirectoryReconcile.Proofs.Ensure.Aliases
import DirectoryReconcile.Proofs.Spelling

/-!
# What is left for the next run

The calls of a run that does not force the flag leave an object under the name that it had, with the
scalars that were assigned. What the same request then asks for is list values that the object does
not show: the canonical principal among its aliases, and values that it stores in another spelling.
-/

namespace DirectoryReconcile

namespace Ensure

open Declaration Entry Operation Difference

variable {declaration : Declaration} {canonical aliases spec : AttributeSpec}
  {desired : DesiredState} {identity : Identity} {texts : List String}
  {allowed : String → Scalar → Prop} {changes : ChangeSet} {call : RemoteCall}
  {held held' seen : Option Entry} {result : Json} {entries after : List Entry}
  {calls posted : List RemoteCall} {faults : Dict InjectedFault} {v : Scalar}

/-! ## Objects that stay -/

/-- An object that is there stays there, under the name that it has. -/
def Stays (held held' : Option Entry) : Prop :=
  ∀ found ∈ held, ∃ entry ∈ held', entry.identity = found.identity

theorem Stays.trans {held'' : Option Entry} (h : Stays held held') (h' : Stays held' held'') :
    Stays held held'' := fun found hfound ↦ by
  obtain ⟨middle, hmiddle, hname⟩ := h found hfound
  obtain ⟨entry, hentry, hname'⟩ := h' middle hmiddle
  exact ⟨entry, hentry, hname'.trans hname⟩

theorem Stays.isSome (h : Stays held held') (hsome : held.isSome) : held'.isSome := by
  obtain ⟨found, rfl⟩ := Option.isSome_iff_exists.1 hsome
  obtain ⟨entry, hentry, -⟩ := h found rfl
  exact Option.isSome_iff_exists.2 ⟨entry, hentry⟩

theorem stays_of_leaves {arguments : Arguments} {operation : Operation}
    (hexplicit : declaration.creation = .explicit) (hremove : operation ≠ .remove)
    (h : Leaves declaration texts arguments operation held result held') : Stays held held' := by
  cases h with
  | created | begun => exact fun _ h ↦ absurd h (by simp)
  | removed => exact absurd rfl hremove
  | emptied _ hemptied => simp [isEmptied, hexplicit] at hemptied
  | changed | flagged | extended | reduced =>
    rintro _ ⟨⟩
    exact ⟨_, rfl, rfl⟩

/-- A call about an object that does not remove it. -/
def Retains (declaration : Declaration) (texts : List String) (allowed : String → Scalar → Prop)
    (call : RemoteCall) : Prop :=
  Concerns declaration texts allowed call ∧
    ofMethod? declaration call.method call.arguments ≠ some .remove

section

variable (regular : declaration.Regular)

include regular

theorem stays_of_course (hexplicit : declaration.creation = .explicit)
    (hcalls : ∀ call ∈ calls, Retains declaration texts allowed call)
    (horderly : Orderly declaration allowed texts entries)
    (hcourse : Course declaration faults entries calls posted none after) :
    Orderly declaration allowed texts after ∧ Stays (focus texts entries) (focus texts after) := by
  generalize hnone : (none : Option Failure) = ended at hcourse
  induction hcourse with
  | done => exact ⟨horderly, fun found hfound ↦ ⟨found, hfound, rfl⟩⟩
  | refused => simp at hnone
  | step hfault hcarried _ ih =>
    obtain ⟨hconcerns, hremove⟩ := hcalls _ List.mem_cons_self
    obtain ⟨horderly', result, hanswers⟩ := horderly.carryOut regular hconcerns hcarried
    obtain ⟨operation, hoperation, hfind, hid, -⟩ := hconcerns
    have hleaves := hanswers.leaves hoperation hfind hid (namedBy_focus texts _)
    have hstays := stays_of_leaves hexplicit (fun heq ↦ hremove (heq ▸ hoperation)) hleaves
    obtain ⟨hleft, hstays'⟩ :=
      ih (fun call hcall ↦ hcalls call (List.mem_cons_of_mem _ hcall)) horderly' hnone
    exact ⟨hleft, hstays.trans hstays'⟩

theorem retains_primaryCall {action : Action} (hcomes : Comes declaration desired changes)
    (hconcerns : Concerns declaration texts allowed call)
    (hcall : primaryCall declaration identity action changes = some call) :
    Retains declaration texts allowed call := by
  refine ⟨hconcerns, ?_⟩
  rw [ofMethod?_primaryCall regular hcomes hcall]
  split <;> simp

theorem retains_phaseCall {lists : Dict (List Scalar)} {adding : Bool}
    (spells : declaration.Spells identity texts)
    (hconcerns : Concerns declaration texts allowed call)
    (hcall : call ∈ phaseCalls declaration identity adding lists) :
    Retains declaration texts allowed call := by
  rw [phaseCalls_eq, Dict.mem_values_iff] at hcall
  obtain ⟨method, hcall⟩ := hcall
  refine ⟨hconcerns, ?_⟩
  obtain ⟨-, ⟨-, -, hoperation⟩ | ⟨-, -, hoperation⟩⟩ := phase_cases regular spells hcall
  · simp [hoperation]
  · cases adding <;> simp [hoperation]

/-- Calls of list methods leave the other attributes alone. -/
theorem sameScalars_of_course {lists : Dict (List Scalar)} {adding : Bool}
    (honly : ∀ spec ∈ declaration.attributes, ∀ v, allowed spec.name v → spec.isList = true)
    (spells : declaration.Spells identity texts) (hlists : Holdable declaration allowed lists)
    (hcalls : ∀ call ∈ phaseCalls declaration identity adding lists,
      Concerns declaration texts allowed call)
    (horderly : Orderly declaration allowed texts entries)
    (horderly' : Orderly declaration allowed texts after)
    (hcourse : Course declaration faults entries (phaseCalls declaration identity adding lists)
      posted none after) : SameScalars declaration (focus texts entries) (focus texts after) := by
  apply sameScalars_of_mem_iff regular horderly.sound horderly'.sound
  intro spec hspec hidentity hscalar v
  have hpicks : Picks allowed spec.name (· = v) := by
    refine ⟨fun a b ha ↦ ?_, ?_⟩
    · simp [honly spec hspec a ha] at hscalar
    · rintro _ _ rfl rfl
      exact Scalar.sameName_refl _
  have hnone : ¬Lists lists spec (· = v) := by
    rintro ⟨values, hvalues, -⟩
    simp [(hlists spec hspec values hvalues).1] at hscalar
  obtain ⟨-, hiff⟩ := exists_stock_phaseCalls regular spells hpicks hlists hspec hidentity hcalls
    horderly hcourse
  rw [eq_false hnone, moved_false] at hiff
  simpa using hiff

end

/-! ## Values that are involved -/

/-- The values of a list that an object stores or that are requested for it. -/
def Involved (declaration : Declaration) (desired : DesiredState) (held : Option Entry)
    (name : String) (v : Scalar) : Prop :=
  ∃ spec ∈ declaration.attributes, spec.name = name ∧ spec.isList = true ∧
    (v ∈ stock held spec ∨ v ∈ (asked desired spec).getD [])

section

variable (regular : declaration.Regular) (hspec : spec ∈ declaration.attributes)

include regular hspec

theorem involved_iff : Involved declaration desired held spec.name v ↔
    spec.isList = true ∧ (v ∈ stock held spec ∨ v ∈ (asked desired spec).getD []) := by
  constructor
  · rintro ⟨other, hother, hname, h⟩
    rwa [regular.eq_of_name_eq hother hspec hname] at h
  · exact fun h ↦ ⟨spec, hspec, rfl, h⟩

end

theorem involved_of_asks :
    ∀ spec scalars, Asks declaration desired spec scalars → spec.isList = true →
      ∀ v ∈ scalars, Involved declaration desired held spec.name v := fun spec scalars h hlist v hv ↦
  ⟨spec, h.mem, rfl, hlist, .inr (by rwa [h.asked_eq])⟩

theorem Orderly.involved (desired : DesiredState) (h : Orderly declaration allowed texts entries) :
    Orderly declaration (Involved declaration desired (focus texts entries)) texts entries := by
  refine ⟨h.distinct, fun entry hentry ↦ ?_⟩
  have hsound := h.sound entry hentry
  refine ⟨hsound.length_eq, hsound.signed, fun key value hget ↦ ?_⟩
  obtain ⟨spec, hspec, rfl, scalars, rfl, hstocks⟩ := hsound.stored key value hget
  refine ⟨spec, hspec, rfl, scalars, rfl, { hstocks with allowed := fun hlist v hv ↦ ?_ }⟩
  refine ⟨spec, hspec, rfl, hlist, .inl ?_⟩
  rw [Option.mem_def.1 hentry, stock, Stored.scalars_of_get? hget]
  exact hv

/-! ## After the calls of a run -/

section

variable (regular : declaration.Regular) (valid : Valid declaration desired identity texts)
  (hallowed : ∀ spec scalars, Asks declaration desired spec scalars → spec.isList = true →
    ∀ v ∈ scalars, allowed spec.name v)
  (horderly : Orderly declaration allowed texts entries)
  (hstate : desired.state = .present ∨ desired.state = .exact)
  (hseen : ∀ entry ∈ seen, entry.Sound declaration allowed)
  (hplanned : Planned declaration desired (actionOn (focus texts entries)) seen changes)

include regular valid hallowed hstate hplanned

theorem concerns_callsOf :
    ∀ call ∈ callsOf declaration desired identity (focus texts entries) changes,
      Concerns declaration texts allowed call := by
  intro call hcall
  have hcomes := hplanned.comes regular valid
  rw [callsOf, flagCall_of_unforced hstate, Option.toList_none, List.nil_append, List.mem_append,
    listCalls, List.mem_append, Option.mem_toList] at hcall
  rcases hcall with hcall | hcall | hcall
  · exact concerns_primaryCall regular valid hcomes hallowed hcall
  · exact concerns_additions regular valid (comes_afterPrimary hcomes) hallowed hcall
  · exact concerns_removals regular valid (comes_afterPrimary hcomes) hcall

include horderly hseen

/-- What an object is once the calls of a run were carried out, its lists apart. -/
theorem stock_after_callsOf (hexplicit : declaration.creation = .explicit)
    (honly : ∀ spec ∈ declaration.attributes, ∀ v, allowed spec.name v → spec.isList = true)
    (hcourse : Course declaration faults entries
      (callsOf declaration desired identity (focus texts entries) changes) posted none after) :
    Orderly declaration allowed texts after ∧ Stays (focus texts entries) (focus texts after) ∧
      (focus texts after).isSome ∧
        ∀ spec ∈ declaration.attributes, spec.isList = false → spec.identity = false →
          stock (focus texts after) spec = primaryStock declaration (actionOn (focus texts entries))
            changes (focus texts entries) spec := by
  have hcomes := hplanned.comes regular valid
  have hadds := hplanned.holdable_afterPrimary regular valid hallowed
  have hremoves := hplanned.holdable_removes regular hseen
  have hadding : ∀ call ∈ phaseCalls declaration identity true
      (afterPrimary declaration (actionOn (focus texts entries)) changes).listAdds,
        Concerns declaration texts allowed call := fun call hcall ↦
    concerns_additions regular valid (comes_afterPrimary hcomes) hallowed hcall
  have hremoving : ∀ call ∈ phaseCalls declaration identity false changes.listRemoves,
      Concerns declaration texts allowed call := fun call hcall ↦
    concerns_removals regular valid hcomes hcall
  obtain ⟨created, added, hfirst, hadditions, hremovals⟩ := split_callsOf hstate hcourse
  obtain ⟨hcreated, hsome, hprimary⟩ :=
    stock_after_first regular valid hallowed horderly hplanned hfirst
  obtain ⟨-, hstays⟩ := stays_of_course regular hexplicit (fun call hcall ↦
    retains_primaryCall regular hcomes (concerns_primaryCall regular valid hcomes hallowed
      (Option.mem_toList.1 hcall)) (Option.mem_toList.1 hcall)) horderly hfirst
  obtain ⟨hadded, hstays'⟩ := stays_of_course regular hexplicit (fun call hcall ↦
    retains_phaseCall regular valid.spells (hadding call hcall) hcall) hcreated hadditions
  obtain ⟨hafter, hstays''⟩ := stays_of_course regular hexplicit (fun call hcall ↦
    retains_phaseCall regular valid.spells (hremoving call hcall) hcall) hadded hremovals
  have hsame := sameScalars_of_course regular honly valid.spells hadds hadding hcreated hadded
    hadditions
  have hsame' := sameScalars_of_course regular honly valid.spells hremoves hremoving hadded
    hafter hremovals
  refine ⟨hafter, hstays.trans (hstays'.trans hstays''),
    (hstays'.trans hstays'').isSome (hsome hexplicit), fun spec hspec hscalar hidentity ↦ ?_⟩
  calc stock (focus texts after) spec
    _ = stock (focus texts added) spec := hsame' spec hspec hidentity hscalar
    _ = stock (focus texts created) spec := hsame spec hspec hidentity hscalar
    _ = _ := hprimary spec hspec hidentity

end

/-! ## Repeated requests -/

section

variable (regular : declaration.Regular) (aliased : declaration.Aliased canonical aliases)
  (hheld : ∀ entry ∈ held, entry.Sound declaration allowed)
  (hheld' : ∀ entry ∈ held', entry.Sound declaration allowed)

include aliased hheld hheld'

/-- An object that stays keeps its canonical principal. -/
theorem stock_canonical_of_stays (hstays : Stays held held') (hsome : held.isSome) :
    stock held' canonical = stock held canonical := by
  obtain ⟨found, rfl⟩ := Option.isSome_iff_exists.1 hsome
  obtain ⟨entry, hentry, hname⟩ := hstays found rfl
  obtain rfl := Option.mem_def.1 hentry
  have hsound := hheld found rfl
  have hsound' := hheld' entry rfl
  have hfst : (declaration.identityAttributes.zip found.identity).map Prod.fst =
      declaration.identityAttributes := List.map_fst_zip (Nat.le_of_eq hsound.length_eq.symm)
  have hmem := aliased.canonical_mem
  rw [← hfst] at hmem
  obtain ⟨pair, hpair, hfirst⟩ := List.mem_map.1 hmem
  have hget := hsound.signed pair hpair
  have hget' := hsound'.signed pair (hname ▸ hpair)
  rw [hfirst] at hget hget'
  exact Stored.scalars_congr (hget'.trans hget.symm)

include regular

/-- Values that an object shows among its aliases were shown before if they were stored. -/
theorem mem_stock_withoutCanonical_of_stays (hstays : Stays held held')
    (hspec : spec ∈ declaration.attributes) (hstored : v ∈ stock held spec)
    (h : v ∈ stock (held'.map withoutCanonical) spec) :
    v ∈ stock (held.map withoutCanonical) spec := by
  have hsome : held.isSome := by
    cases held with
    | none => exact absurd hstored List.not_mem_nil
    | some found => rfl
  rw [mem_stock_withoutCanonical regular aliased hheld' hspec,
    stock_canonical_of_stays aliased hheld hheld' hstays hsome] at h
  exact (mem_stock_withoutCanonical regular aliased hheld hspec).2 ⟨hstored, h.2⟩

end

variable (regular : declaration.Regular) (aliased : declaration.Aliased canonical aliases)
  (valid : Valid declaration desired identity texts)
  (hexplicit : declaration.creation = .explicit)
  (hstate : desired.state = .present ∨ desired.state = .exact)
  (horderly : Orderly declaration (Involved declaration desired (focus texts entries)) texts
    entries)
  (hplanned : Planned declaration desired (actionOn (focus texts entries))
    ((focus texts entries).map withoutCanonical) changes)
  (hcourse : Course declaration faults entries
    (callsOf declaration desired identity (focus texts entries) changes) posted none after)

include regular aliased valid hexplicit hstate horderly hplanned hcourse

theorem stock_after_run :
    Orderly declaration (Involved declaration desired (focus texts entries)) texts after ∧
      Stays (focus texts entries) (focus texts after) ∧ (focus texts after).isSome ∧
        ∀ spec ∈ declaration.attributes, spec.isList = false → spec.identity = false →
          stock (focus texts after) spec = primaryStock declaration (actionOn (focus texts entries))
            changes (focus texts entries) spec :=
  stock_after_callsOf regular valid (involved_of_asks) horderly hstate
    (sound_withoutCanonical regular aliased horderly.sound) hplanned hexplicit
    (fun _ hspec _ h ↦ ((involved_iff regular hspec).1 h).1) hcourse

theorem assignsAt_again (hspec : spec ∈ declaration.attributes) (hscalar : spec.isList = false) :
    assignsAt declaration desired .modify ((focus texts after).map withoutCanonical) spec =
      none := by
  obtain ⟨hafter, -, -, hstock⟩ :=
    stock_after_run regular aliased valid hexplicit hstate horderly hplanned hcourse
  have hne : spec ≠ aliases := by
    rintro rfl
    simp [aliased.aliases_list] at hscalar
  have haction : actionOn ((focus texts entries).map withoutCanonical) =
      actionOn (focus texts entries) := actionOn_map _ _
  rw [← haction] at hplanned
  refine assignsAt_after_primary regular hplanned hspec hscalar fun hidentity ↦ ?_
  rw [stock_withoutCanonical_of_ne regular aliased hafter.sound hspec hne,
    hstock spec hspec hscalar hidentity, haction, primaryStock, primaryStock,
    stock_withoutCanonical_of_ne regular aliased horderly.sound hspec hne]

theorem removesAt_again (hspec : spec ∈ declaration.attributes) (hlist : spec.isList = true) :
    removesAt desired ((focus texts after).map withoutCanonical) spec = none := by
  obtain ⟨hafter, hstays, hsome, -⟩ :=
    stock_after_run regular aliased valid hexplicit hstate horderly hplanned hcourse
  obtain ⟨entry, hentry⟩ := Option.isSome_iff_exists.1 hsome
  rw [removesAt_eq_none_iff]
  refine ⟨fun hexact v hv ↦ ?_, fun habsent ↦ by simp [habsent] at hstate⟩
  have hstored := ((mem_stock_withoutCanonical regular aliased hafter.sound hspec).1 hv).1
  by_contra hnot
  -- What is stored afterwards was stored before or is requested.
  have hbefore : v ∈ stock (focus texts entries) spec := by
    rw [hentry] at hstored
    have hinvolved := ((hafter.sound entry hentry).stored.held regular hspec hlist hstored).2
    exact (((involved_iff regular hspec).1 hinvolved).2).resolve_right hnot
  have hseen := mem_stock_withoutCanonical_of_stays regular aliased horderly.sound hafter.sound
    hstays hspec hbefore hv
  have hleft := (exists_stock_callsOf regular valid (involved_of_asks) hspec hlist horderly
    (picks_sameName _ spec.name v) hstate (sound_withoutCanonical regular aliased horderly.sound)
    hplanned hcourse).1 ⟨v, hstored, Scalar.sameName_refl v⟩
  exact hleft.2 ⟨hexact, v, hseen, hnot, Scalar.sameName_refl v⟩

/-- Nothing is left to do for a request when the object shows every value that is requested for a
list. -/
theorem callsOf_again_iff {changes' : ChangeSet}
    (hplanned' : Planned declaration desired (actionOn (focus texts after))
      ((focus texts after).map withoutCanonical) changes') :
    callsOf declaration desired identity (focus texts after) changes' = [] ↔
      ∀ spec ∈ declaration.attributes, spec.isList = true →
        ∀ v ∈ (asked desired spec).getD [],
          v ∈ stock ((focus texts after).map withoutCanonical) spec := by
  obtain ⟨hafter, -, hsome, -⟩ :=
    stock_after_run regular aliased valid hexplicit hstate horderly hplanned hcourse
  have haction : actionOn (focus texts after) = .modify := actionOn_of_isSome hsome
  have hpresent : desired.state ≠ .absent := by rcases hstate with h | h <;> simp [h]
  have hseen := sound_withoutCanonical regular aliased hafter.sound
  have hallowed : ∀ spec scalars, Asks declaration desired spec scalars → spec.isList = true →
      ∀ v ∈ scalars, Involved declaration desired (focus texts entries) spec.name v :=
    involved_of_asks
  have hscalars : changes'.scalars = ∅ :=
    (hplanned'.scalars_eq_empty_iff regular).2 fun spec hspec hscalar ↦ by
      rw [haction]
      exact assignsAt_again regular aliased valid hexplicit hstate horderly hplanned hcourse hspec
        hscalar
  have hremoves : changes'.listRemoves = ∅ :=
    (hplanned'.listRemoves_eq_empty_iff regular).2 fun spec hspec hlist ↦
      removesAt_again regular aliased valid hexplicit hstate horderly hplanned hcourse hspec hlist
  have hcreates : creates declaration (actionOn (focus texts after)) = false := by
    rw [haction]
    rfl
  rw [callsOf_eq_nil_iff regular valid hallowed hseen hplanned',
    hplanned'.listAdds_eq_empty_iff regular]
  constructor
  · rintro ⟨-, -, -, hadds, -⟩ spec hspec hlist v hv
    cases hasked : asked desired spec with
    | none => simp [hasked] at hv
    | some scalars =>
      rw [hasked, Option.getD_some] at hv
      have hstored := (addsAt_eq_none_iff.1 (hadds spec hspec hlist)).resolve_left hpresent
      exact hstored scalars hasked v hv
  · intro hall
    refine ⟨hscalars, hcreates, flagCall_of_unforced hstate, fun spec hspec hlist ↦ ?_, hremoves⟩
    refine addsAt_eq_none_iff.2 (.inr fun scalars hasked v hv ↦ hall spec hspec hlist v ?_)
    rwa [hasked, Option.getD_some]

omit hexplicit in
/-- A requested value is stored when no value that is the same but for its spelling is involved. -/
theorem mem_stock_of_spelledOnce (hspec : spec ∈ declaration.attributes)
    (hlist : spec.isList = true) (hv : v ∈ (asked desired spec).getD [])
    (halike : ∀ w, w ∈ stock (focus texts entries) spec ∨ w ∈ (asked desired spec).getD [] →
      w.sameName v = true → w = v) : v ∈ stock (focus texts after) spec := by
  have hpicks : Picks (Involved declaration desired (focus texts entries)) spec.name (· = v) := by
    have hspelled {w : Scalar} (hw : Involved declaration desired (focus texts entries) spec.name w)
        (hsame : w.sameName v = true) : w = v :=
      halike w ((involved_iff regular hspec).1 hw).2 hsame
    refine ⟨fun a b ha hb hsame ↦ ⟨?_, ?_⟩, ?_⟩
    · rintro rfl
      exact hspelled hb (Scalar.sameName_symm hsame)
    · rintro rfl
      exact hspelled ha hsame
    · rintro _ _ rfl rfl
      exact Scalar.sameName_refl _
  have hiff := exists_stock_callsOf regular valid (involved_of_asks) hspec hlist horderly
    hpicks hstate (sound_withoutCanonical regular aliased horderly.sound) hplanned hcourse
  simp only [exists_eq_right] at hiff
  refine hiff.2 ⟨?_, ?_⟩
  · by_cases hstored : v ∈ stock (focus texts entries) spec
    · exact .inl hstored
    · refine .inr ⟨v, hv, fun hseen ↦ hstored ?_, rfl⟩
      exact ((mem_stock_withoutCanonical regular aliased horderly.sound hspec).1 hseen).1
  · rintro ⟨-, _, -, hnot, rfl⟩
    exact hnot hv

end Ensure

end DirectoryReconcile
