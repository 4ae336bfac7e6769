import DirectoryReconcile.Proofs.Refinement

/-!
# Spellings of list values

The directory takes texts that are the same up to the case of letters for one value, while requests
are compared with objects text by text. A run follows each value of a list, in whatever spelling:
it is there afterwards when it was there or was requested, unless the run removed it in another
spelling.
-/

namespace DirectoryReconcile

namespace Ensure

open Declaration Entry Difference

variable {declaration : Declaration} {desired : DesiredState} {identity : Identity}
  {texts : List String} {allowed : String → Scalar → Prop} {changes : ChangeSet}
  {spec : AttributeSpec} {p : Scalar → Prop} {faults : Dict InjectedFault}
  {entries after : List Entry} {calls posted : List RemoteCall} {held : Option Entry}
  {lists : Dict (List Scalar)} {adding : Bool}

/-! ## Values to add and to remove -/

/-- A list has a value with a property among those of a dictionary. -/
def Lists (lists : Dict (List Scalar)) (spec : AttributeSpec) (p : Scalar → Prop) : Prop :=
  ∃ values, lists.get? spec.name = some values ∧ ∃ v ∈ values, p v

theorem exists_addsAt_iff (hstate : desired.state ≠ .absent) :
    (∃ values, addsAt desired held spec = some values ∧ ∃ v ∈ values, p v) ↔
      ∃ v ∈ (asked desired spec).getD [], v ∉ stock held spec ∧ p v := by
  cases hadds : addsAt desired held spec with
  | none =>
    have hstored := (addsAt_eq_none_iff.1 hadds).resolve_left hstate
    cases hasked : asked desired spec with
    | none => simp
    | some scalars =>
      have hstored := hstored scalars hasked
      simp only [reduceCtorEq, false_and, exists_false, Option.getD_some, false_iff]
      rintro ⟨v, hv, hnot, -⟩
      exact hnot (hstored v hv)
  | some values =>
    obtain ⟨-, -, -, scalars, hasked, hmem⟩ := mem_of_addsAt hadds
    simp only [Option.some.injEq, exists_eq_left', hasked, Option.getD_some, hmem, and_assoc]

theorem exists_removesAt_iff (hstate : desired.state ≠ .absent) :
    (∃ values, removesAt desired held spec = some values ∧ ∃ v ∈ values, p v) ↔
      desired.state = .exact ∧
        ∃ v ∈ stock held spec, v ∉ (asked desired spec).getD [] ∧ p v := by
  cases hremoves : removesAt desired held spec with
  | none =>
    have hwanted := (removesAt_eq_none_iff.1 hremoves).1
    simp only [reduceCtorEq, false_and, exists_false, false_iff]
    rintro ⟨hexact, v, hv, hnot, -⟩
    exact hnot (hwanted hexact v hv)
  | some values =>
    obtain ⟨-, -, ⟨hexact, hmem⟩ | ⟨habsent, -⟩⟩ := mem_of_removesAt hremoves
    · simp only [Option.some.injEq, exists_eq_left', hexact, hmem, and_assoc, true_and]
    · exact absurd habsent hstate

variable (regular : declaration.Regular)

include regular

/-! ## The calls of one phase -/

section

variable (spells : declaration.Spells identity texts) (hpicks : Picks allowed spec.name p)
  (hlists : Holdable declaration allowed lists) (hspec : spec ∈ declaration.attributes)
  (hidentity : spec.identity = false)

include spells hpicks hlists hspec hidentity

theorem exists_stock_calls {table : List (String × RemoteCall)}
    (htable : ∀ entry ∈ table,
      (phaseTable declaration identity adding lists).get? entry.1 = some entry.2)
    (hconcerns : ∀ entry ∈ table, Concerns declaration texts allowed entry.2)
    (horderly : Orderly declaration allowed texts entries)
    (hcourse : Course declaration faults entries (table.map (·.2)) posted none after) :
    Orderly declaration allowed texts after ∧
      ((∃ v ∈ stock (focus texts after) spec, p v) ↔
        Moved adding (∃ v ∈ stock (focus texts entries) spec, p v)
          (∃ entry ∈ table, belongs declaration adding entry.1 spec.name = true ∧
            Lists lists spec p)) := by
  induction table generalizing entries posted with
  | nil =>
    cases hcourse
    exact ⟨horderly, by simp [moved_false]⟩
  | cons entry rest ih =>
    cases hcourse with
    | @step _ middle _ _ _ _ _ hfault hcarried hrest =>
      obtain ⟨horderly', result, hanswers⟩ :=
        horderly.carryOut regular (hconcerns entry List.mem_cons_self) hcarried
      obtain ⟨hleft, hiff⟩ := ih (fun entry h ↦ htable entry (List.mem_cons_of_mem _ h))
        (fun entry h ↦ hconcerns entry (List.mem_cons_of_mem _ h)) horderly' hrest
      refine ⟨hleft, hiff.trans ?_⟩
      rw [moved_congr (exists_stock_phaseCall regular spells hpicks hlists
        (namedBy_focus texts entries) horderly.sound (htable entry List.mem_cons_self) hanswers hspec
        hidentity) Iff.rfl, moved_moved]
      apply moved_congr Iff.rfl
      simp only [Lists, List.mem_cons, exists_eq_or_imp]

/-- The calls of a phase add the values of a list, or remove them. -/
theorem exists_stock_phaseCalls
    (hconcerns : ∀ call ∈ phaseCalls declaration identity adding lists,
      Concerns declaration texts allowed call)
    (horderly : Orderly declaration allowed texts entries)
    (hcourse : Course declaration faults entries (phaseCalls declaration identity adding lists)
      posted none after) :
    Orderly declaration allowed texts after ∧
      ((∃ v ∈ stock (focus texts after) spec, p v) ↔
        Moved adding (∃ v ∈ stock (focus texts entries) spec, p v) (Lists lists spec p)) := by
  rw [phaseCalls_eq] at hconcerns hcourse
  obtain ⟨horderly', hiff⟩ := exists_stock_calls regular spells hpicks hlists hspec hidentity
    (fun entry hentry ↦ (Dict.mem_entries_iff _).1 hentry)
    (fun entry hentry ↦ hconcerns entry.2 (List.mem_map_of_mem hentry)) horderly hcourse
  refine ⟨horderly', hiff.trans (moved_congr Iff.rfl ⟨fun ⟨_, _, _, h⟩ ↦ h, fun h ↦ ?_⟩)⟩
  -- A list with values has a call of its own method.
  obtain ⟨values, hvalues, -⟩ := id h
  cases hcall : (phaseTable declaration identity adding lists).get?
      (listMethod declaration adding spec) with
  | none =>
    rw [get?_eq_none_of_phaseTable regular hlists hspec hcall] at hvalues
    simp at hvalues
  | some call =>
    refine ⟨(_, call), (Dict.mem_entries_iff _).2 hcall, ?_, h⟩
    simp [belongs, regular.attribute?_of_mem hspec]

end

/-! ## A whole run -/

variable (valid : Valid declaration desired identity texts)
  (hallowed : ∀ spec scalars, Asks declaration desired spec scalars → spec.isList = true →
    ∀ v ∈ scalars, allowed spec.name v)
  (hspec : spec ∈ declaration.attributes) (hlist : spec.isList = true)
  (horderly : Orderly declaration allowed texts entries) {seen : Option Entry}

include valid hallowed

section

variable (hplanned : Planned declaration desired (actionOn (focus texts entries)) seen changes)
  (hcourse : Course declaration faults entries
    (primaryCall declaration identity (actionOn (focus texts entries)) changes).toList posted none
      after)

include horderly hplanned hcourse

/-- What the first call leaves behind, if there is one. It creates the object if it can be created
by itself. -/
theorem stock_after_first :
    Orderly declaration allowed texts after ∧
      (declaration.creation = .explicit → (focus texts after).isSome) ∧
        ∀ spec ∈ declaration.attributes, spec.identity = false → stock (focus texts after) spec =
          primaryStock declaration (actionOn (focus texts entries)) changes (focus texts entries)
            spec := by
  have hcomes := hplanned.comes regular valid
  cases hprimary : primaryCall declaration identity (actionOn (focus texts entries)) changes with
  | none =>
    rw [hprimary] at hcourse
    cases hcourse
    obtain ⟨hscalars, hcreates⟩ := primaryCall_eq_none_iff.1 hprimary
    refine ⟨horderly, fun hexplicit ↦ ?_, fun spec _ _ ↦ ?_⟩
    · by_contra hnone
      simp [creates, actionOn, hexplicit, Option.not_isSome_iff_eq_none.1 hnone] at hcreates
    · simp [primaryStock, inlineAdds, hscalars, hcreates]
  | some call =>
    rw [hprimary] at hcourse
    cases hcourse with
    | step hfault hcarried hrest =>
      cases hrest
      obtain ⟨horderly', result, hanswers⟩ := horderly.carryOut regular
        (concerns_primaryCall regular valid hcomes hallowed hprimary) hcarried
      obtain ⟨-, entry, verb, hentry, -, hstock⟩ := stock_primaryCall regular valid.spells
        hcomes (namedBy_focus texts entries) hprimary hanswers
      exact ⟨horderly', fun _ ↦ by rw [hentry]; rfl, hstock⟩

include hspec hlist

/-- The first call sets lists without methods of their own, if it creates the object. -/
theorem exists_stock_primary :
    (∃ v ∈ stock (focus texts after) spec, p v) ↔
      (∃ v ∈ stock (focus texts entries) spec, p v) ∨
        Lists (inlineAdds declaration (actionOn (focus texts entries)) changes) spec p := by
  obtain ⟨-, -, hstock⟩ := stock_after_first regular valid hallowed horderly hplanned hcourse
  rw [hstock spec hspec (regular.list_text spec hspec hlist).2.1, primaryStock,
    hplanned.scalars spec hspec, if_pos hlist]
  cases hinline : (inlineAdds declaration (actionOn (focus texts entries)) changes).get?
      spec.name with
  | none => simp [Lists, hinline]
  | some values =>
    have hcreates := (get?_inlineAdds hinline).2.1
    have hnone : stock (focus texts entries) spec = [] := by
      cases hfocus : focus texts entries with
      | none => rfl
      | some entry => simp [hfocus, creates, actionOn] at hcreates
    simp [Lists, hinline, hnone]

end

include hspec in
omit valid hallowed in
/-- Values are set by the first call or added by a later one. -/
theorem lists_after_primary_iff (action : Action) :
    Lists (inlineAdds declaration action changes) spec p ∨
        Lists (afterPrimary declaration action changes).listAdds spec p ↔
      Lists changes.listAdds spec p := by
  have hattribute := regular.attribute?_of_mem hspec
  simp only [Lists, get?_inlineAdds_eq action hattribute,
    get?_afterPrimary_listAdds action hattribute]
  split <;> simp

theorem Planned.holdable_afterPrimary {action : Action}
    (hplanned : Planned declaration desired action held changes) :
    Holdable declaration allowed (afterPrimary declaration action changes).listAdds := by
  intro spec hspec values hvalues
  rw [get?_afterPrimary_listAdds action (regular.attribute?_of_mem hspec)] at hvalues
  split at hvalues
  next => simp at hvalues
  next => exact hplanned.holdable_adds regular valid hallowed spec hspec values hvalues

omit regular valid hallowed in
theorem flagCall_of_unforced (hstate : desired.state = .present ∨ desired.state = .exact) :
    flagCall declaration identity desired.state held = none := by
  rcases hstate with h | h <;> rw [h] <;> rfl

omit regular valid hallowed in
/-- The calls of a run that does not force the flag: the first one, additions, and removals. -/
theorem split_callsOf (hstate : desired.state = .present ∨ desired.state = .exact)
    (hcourse : Course declaration faults entries
      (callsOf declaration desired identity held changes) posted none after) :
    let first := (primaryCall declaration identity (actionOn held) changes).toList
    let additions := phaseCalls declaration identity true
      (afterPrimary declaration (actionOn held) changes).listAdds
    let removals := phaseCalls declaration identity false changes.listRemoves
    ∃ created added, Course declaration faults entries first first none created ∧
      Course declaration faults created additions additions none added ∧
        Course declaration faults added removals removals none after := by
  intro first additions removals
  obtain ⟨created, hfirst, hcourse⟩ := hcourse.split
  rw [flagCall_of_unforced hstate, Option.toList_none, List.nil_append, listCalls,
    afterPrimary_listRemoves] at hcourse
  obtain ⟨added, hadditions, hremovals⟩ := hcourse.split
  exact ⟨created, added, hfirst, hadditions, hremovals⟩

include hspec hlist horderly

/-- What a list has after all calls were carried out that are planned for the object as it is
seen. -/
theorem exists_stock_callsOf (hpicks : Picks allowed spec.name p)
    (hstate : desired.state = .present ∨ desired.state = .exact)
    (hseen : ∀ entry ∈ seen, entry.Sound declaration allowed)
    (hplanned : Planned declaration desired (actionOn (focus texts entries)) seen changes)
    (hcourse : Course declaration faults entries
      (callsOf declaration desired identity (focus texts entries) changes) posted none after) :
    (∃ v ∈ stock (focus texts after) spec, p v) ↔
      ((∃ v ∈ stock (focus texts entries) spec, p v) ∨
        ∃ v ∈ (asked desired spec).getD [], v ∉ stock seen spec ∧ p v) ∧
      ¬(desired.state = .exact ∧ ∃ v ∈ stock seen spec,
        v ∉ (asked desired spec).getD [] ∧ p v) := by
  have hpresent : desired.state ≠ .absent := by rcases hstate with h | h <;> simp [h]
  have hidentity := (regular.list_text spec hspec hlist).2.1
  have hcomes := hplanned.comes regular valid
  obtain ⟨created, added, hfirst, hadditions, hremovals⟩ := split_callsOf hstate hcourse
  obtain ⟨hcreatedOrderly, -⟩ := stock_after_first regular valid hallowed horderly hplanned hfirst
  have hcreated := exists_stock_primary (p := p) regular valid hallowed hspec hlist horderly
    hplanned hfirst
  obtain ⟨haddedOrderly, hadded⟩ := exists_stock_phaseCalls regular valid.spells hpicks
    (hplanned.holdable_afterPrimary regular valid hallowed) hspec hidentity
    (fun call hcall ↦ concerns_additions regular valid (comes_afterPrimary hcomes) hallowed hcall)
    hcreatedOrderly hadditions
  obtain ⟨-, hremoved⟩ := exists_stock_phaseCalls regular valid.spells hpicks
    (hplanned.holdable_removes regular hseen) hspec hidentity
    (fun call hcall ↦ concerns_removals regular valid hcomes hcall) haddedOrderly hremovals
  have hadds := hplanned.adds spec hspec
  have hremoves := hplanned.removes spec hspec
  rw [if_pos hlist] at hadds hremoves
  calc (∃ v ∈ stock (focus texts after) spec, p v)
    _ ↔ (∃ v ∈ stock (focus texts added) spec, p v) ∧ ¬Lists changes.listRemoves spec p := hremoved
    _ ↔ ((∃ v ∈ stock (focus texts entries) spec, p v) ∨ Lists changes.listAdds spec p) ∧
        ¬Lists changes.listRemoves spec p := by
      rw [hadded, Moved, if_pos rfl, hcreated, or_assoc, lists_after_primary_iff regular hspec]
    _ ↔ _ := by
      rw [Lists, Lists, hadds, hremoves, exists_addsAt_iff hpresent, exists_removesAt_iff hpresent]

/-- What a list has after all calls that are due were carried out. -/
theorem Due.exists_stock (hpicks : Picks allowed spec.name p)
    (hstate : desired.state = .present ∨ desired.state = .exact)
    (hdue : Due declaration desired identity (focus texts entries) calls)
    (hcourse : Course declaration faults entries calls posted none after) :
    (∃ v ∈ stock (focus texts after) spec, p v) ↔
      ((∃ v ∈ stock (focus texts entries) spec, p v) ∨
        ∃ v ∈ (asked desired spec).getD [], v ∉ stock (focus texts entries) spec ∧ p v) ∧
      ¬(desired.state = .exact ∧ ∃ v ∈ stock (focus texts entries) spec,
        v ∉ (asked desired spec).getD [] ∧ p v) := by
  have hpresent : desired.state ≠ .absent := by rcases hstate with h | h <;> simp [h]
  generalize hheld : focus texts entries = held at hdue
  cases hdue with
  | gone habsent => exact absurd habsent hpresent
  | whole habsent => exact absurd habsent hpresent
  | changes _ _ hplanned =>
    subst hheld
    exact exists_stock_callsOf regular valid hallowed hspec hlist horderly hpicks hstate
      horderly.sound hplanned hcourse

/-- A requested value is there after all calls that are due, unless one of them removes it in a
spelling that is not requested. -/
theorem Due.exists_same_iff {v : Scalar} (hv : v ∈ (asked desired spec).getD [])
    (hstate : desired.state = .present ∨ desired.state = .exact)
    (hdue : Due declaration desired identity (focus texts entries) calls)
    (hcourse : Course declaration faults entries calls posted none after) :
    (∃ w ∈ stock (focus texts after) spec, w.sameName v = true) ↔
      (desired.state = .exact → ∀ w ∈ stock (focus texts entries) spec, w.sameName v = true →
        w ∈ (asked desired spec).getD []) := by
  have hthere : (∃ w ∈ stock (focus texts entries) spec, w.sameName v = true) ∨
      ∃ w ∈ (asked desired spec).getD [], w ∉ stock (focus texts entries) spec ∧
        w.sameName v = true := by
    by_cases hmem : v ∈ stock (focus texts entries) spec
    · exact .inl ⟨v, hmem, Scalar.sameName_refl v⟩
    · exact .inr ⟨v, hv, hmem, Scalar.sameName_refl v⟩
  rw [hdue.exists_stock regular valid hallowed hspec hlist horderly (picks_sameName _ spec.name v)
    hstate hcourse, and_iff_right hthere, not_and]
  refine forall_congr' fun _ ↦ ⟨fun hnone w hw hsame ↦ ?_, fun hall ⟨w, hw, hnot, hsame⟩ ↦ ?_⟩
  · by_contra hnot
    exact hnone ⟨w, hw, hnot, hsame⟩
  · exact hnot (hall w hw hsame)

end Ensure

namespace Directory

open Exchange Entry Ensure

/-- Among values there is a text that is this one up to the case of letters. -/
def SpelledIn (values : List Json) (text : String) : Prop :=
  ∃ other, .str other ∈ values ∧ Text.sameIgnoringCase other text = true

variable {history : History} {directory : Directory} {schema : ObjectSchema}
  {desired : DesiredState} {declaration : Declaration} {allowed : String → Scalar → Prop}
  {held : Option Entry} {spec : AttributeSpec}

theorem sameName_str_iff {v : Scalar} {text : String} :
    v.sameName (.str text) = true ↔
      ∃ other, v = .str other ∧ Text.sameIgnoringCase other text = true := by
  cases v <;> simp [Scalar.sameName]

theorem spelledIn_holdings_iff (regular : declaration.Regular)
    (hheld : ∀ entry ∈ held, entry.Sound declaration allowed) (hspec : spec ∈ declaration.attributes)
    {text : String} : SpelledIn (holdings (held.map (·.attrs)) spec) text ↔
      ∃ v ∈ stock held spec, v.sameName (.str text) = true := by
  constructor
  · rintro ⟨other, hmem, hsame⟩
    exact ⟨.str other, (toJson_mem_holdings regular hheld hspec).1 hmem, hsame⟩
  · rintro ⟨v, hv, hsame⟩
    obtain ⟨other, rfl, hsame⟩ := sameName_str_iff.1 hsame
    exact ⟨other, (toJson_mem_holdings regular hheld hspec).2 hv, hsame⟩

/-- After a run that succeeded, a requested value of a list is stored up to the case of letters,
unless the object was to have exactly the requested values and had this one in a spelling that is
not among them: then the run removes both. -/
theorem ensure_stores_requested (reached : Reached history directory)
    (hschema : schema ∈ ObjectSchema.builtins) (hservice : schema.name ≠ ObjectSchema.service.name)
    (hdry : desired.dryRun = false) (hstate : desired.state = .present ∨ desired.state = .exact)
    (hok : (Exchange.run transport (Ensure.run schema.toDeclaration desired)
      directory).1.result.isOk) :
    let after := (Exchange.run transport (Ensure.run schema.toDeclaration desired) directory).2
    ∃ texts, target? schema.toDeclaration desired = some texts ∧
      ∀ spec ∈ schema.attributes, spec.isList = true → ∀ value ∈ requested desired spec,
        ∃ text, value = .str text ∧
          (SpelledIn (holdings (after.object? schema.name texts) spec) text ↔
            (desired.state = .exact →
              ∀ other, .str other ∈ holdings (directory.object? schema.name texts) spec →
                Text.sameIgnoringCase other text = true → .str other ∈ requested desired spec)) := by
  intro after
  have hregular := ObjectSchema.regular_of_mem_builtins hschema
  have hkept := reached.kept
  obtain ⟨identity, texts, calls, final, htarget, -, hvalid, hdue, hcourse, hlike⟩ :=
    exists_course_of_ok hkept hschema hservice hdry hok
  have hbefore := orderly_of_kept hschema (hkept.requested schema desired) texts
  have hafter := orderly_of_kept hschema (hkept.run hschema desired) texts
  have hallowed := @requested_of_asks history schema desired texts hschema htarget
  refine ⟨texts, htarget, fun spec hspec hlist value hvalue ↦ ?_⟩
  obtain ⟨v, rfl⟩ := exists_of_mem_requested hvalue
  have hv := mem_requested.1 hvalue
  obtain ⟨text, rfl⟩ : ∃ text, v = .str text := by
    cases hasked : asked desired spec with
    | none => simp [hasked] at hv
    | some scalars =>
      rw [hasked, Option.getD_some] at hv
      have hasks := asks_of_asked hvalid hregular hspec hasked
      exact (hasks.keeps v hv).exists_str (hregular.list_text spec hspec hlist).1
  have hstock := hdue.exists_same_iff hregular hvalid hallowed hspec hlist hbefore hv hstate hcourse
  rw [← entriesOf_of_get? hlike.get?_objects] at hstock
  refine ⟨text, rfl, ?_⟩
  rw [object?_eq, object?_eq]
  refine (spelledIn_holdings_iff hregular hafter.sound hspec).trans (hstock.trans ?_)
  refine forall_congr' fun _ ↦ ⟨fun hall other hother hsame ↦ ?_, fun hall w hw hsame ↦ ?_⟩
  · exact mem_requested.2
      (hall (.str other) ((toJson_mem_holdings hregular hbefore.sound hspec).1 hother) hsame)
  · obtain ⟨other, rfl, hsame⟩ := sameName_str_iff.1 hsame
    exact mem_requested.1
      (hall other ((toJson_mem_holdings hregular hbefore.sound hspec).2 hw) hsame)

/-- A group with one member, spelled like this. -/
def groupOf (state : TargetState) (member : String) : DesiredState where
  identity := .ofList [("cn", .scalar (.str "ops"))]
  attributes := .ofList [("member_user", .list [.str member])]
  state := state
  dryRun := false

/-- The members of a group that are users. -/
def memberUser : AttributeSpec :=
  (AttributeSpec.list "member_user").routed "group_add_member" "group_remove_member" "user"

/-- A member that is to be the only one is lost, since the group has it in another spelling. -/
theorem ensure_stores_requested_recased :
    let before := (Exchange.run transport
      (Ensure.run ObjectSchema.group.toDeclaration (groupOf .present "Alice"))
      (ofRegistry .builtin)).2
    let ran := Exchange.run transport
      (Ensure.run ObjectSchema.group.toDeclaration (groupOf .exact "alice")) before
    ran.1.result.isOk ∧ memberUser ∈ ObjectSchema.group.attributes ∧
      .str "alice" ∈ requested (groupOf .exact "alice") memberUser ∧
      SpelledIn (holdings (before.object? "group" ["ops"]) memberUser) "alice" ∧
      ¬SpelledIn (holdings (ran.2.object? "group" ["ops"]) memberUser) "alice" := by
  intro before ran
  have hmem : ObjectSchema.group ∈ ObjectSchema.builtins := by simp [ObjectSchema.builtins]
  have hspec : memberUser ∈ ObjectSchema.group.attributes := by simp [ObjectSchema.group, memberUser]
  have hok : ran.1.result.isOk = true := by decide +kernel
  have hrequested : .str "alice" ∈ requested (groupOf .exact "alice") memberUser := by
    decide +kernel
  have hbefore : .str "Alice" ∈ holdings (before.object? "group" ["ops"]) memberUser := by
    decide +kernel
  have hreached : Reached [(ObjectSchema.group, groupOf .present "Alice")] before :=
    .ensure (groupOf .present "Alice") .empty hmem
  obtain ⟨texts, htarget, hstored⟩ :=
    ensure_stores_requested hreached hmem (by decide +kernel) rfl (.inr rfl) hok
  cases htarget.symm.trans (by decide +kernel :
    target? ObjectSchema.group.toDeclaration (groupOf .exact "alice") = some ["ops"])
  obtain ⟨_, ⟨⟩, hiff⟩ := hstored memberUser hspec rfl _ hrequested
  refine ⟨hok, hspec, hrequested, ⟨"Alice", hbefore, by decide⟩, fun hafter ↦ ?_⟩
  have hlost := hiff.1 hafter rfl "Alice" hbefore (by decide)
  exact absurd hlost (by decide +kernel)

end Directory

end DirectoryReconcile
