import DirectoryReconcile.Proofs.Convergence
import DirectoryReconcile.Proofs.Ensure.Goals

/-!
# What runs achieve

What an object stores after a run that succeeded, told from what it stored before and from the
request, with every attribute as a set of canonical values.
-/

namespace DirectoryReconcile

namespace Ensure

open Declaration Entry Difference

variable {declaration : Declaration} {desired : DesiredState} {held held' : Option Entry}
  {spec : AttributeSpec} {identity : Identity} {texts : List String}
  {allowed : String → Scalar → Prop}

/-- The stored values of an attribute, none if the object does not exist. -/
def holdings (attrs? : Option (Dict Json)) (spec : AttributeSpec) : List Json :=
  (attrs?.map fun attrs ↦ Stored.valuesOf attrs spec.responseKey).getD []

/-- The canonical values that a request has for an attribute, if it has the attribute at all. Null
has no values. -/
def requested? (desired : DesiredState) (spec : AttributeSpec) : Option (List Json) :=
  (asked desired spec).map fun scalars ↦ scalars.map Scalar.toJson

/-- The canonical values that a request has for an attribute. -/
def requested (desired : DesiredState) (spec : AttributeSpec) : List Json :=
  (requested? desired spec).getD []

/-- Whether an object is enabled, which it is without the flag. -/
def isOn (declaration : Declaration) (flag : EnableSpec) (attrs? : Option (Dict Json)) : Bool :=
  match (declaration.attribute? flag.attr).map (holdings attrs?) with
  | some (.bool stored :: _) => stored != flag.inverted
  | _ => true

/-- A run creates an object that does not exist and modifies one that does. -/
def actionTo (attrs? : Option (Dict Json)) : Action := if attrs?.isNone then .add else .modify

/-- A requested attribute is a list, whatever its value. -/
def NamesList (declaration : Declaration) (desired : DesiredState) : Prop :=
  ∃ spec ∈ declaration.attributes, spec.isList = true ∧
    desired.attributes.contains spec.name = true

/-- What a request makes of the stored attributes of its object. -/
structure Achieved (declaration : Declaration) (desired : DesiredState)
    (before after : Option (Dict Json)) : Prop where
  /-- An object that is to be absent is gone, unless only values of its lists are. -/
  gone : desired.state = .absent → ¬NamesList declaration desired → after = none
  reduced : desired.state = .absent → NamesList declaration desired →
    ∀ spec ∈ declaration.attributes, spec.isList = true → ∀ value,
      value ∈ holdings after spec ↔ value ∈ holdings before spec ∧ value ∉ requested desired spec
  united : desired.state ≠ .absent → desired.state ≠ .exact →
    ∀ spec ∈ declaration.attributes, spec.isList = true → ∀ value,
      value ∈ holdings after spec ↔ value ∈ holdings before spec ∨ value ∈ requested desired spec
  replaced : desired.state = .exact →
    ∀ spec ∈ declaration.attributes, spec.isList = true → ∀ value,
      value ∈ holdings after spec ↔ value ∈ requested desired spec
  nodup : ∀ spec ∈ declaration.attributes, (holdings after spec).Nodup
  assigned : desired.state ≠ .absent →
    ∀ spec ∈ declaration.attributes, spec.isList = false → ∀ values,
      requested? desired spec = some values → spec.appliesTo (actionTo before) = true →
        holdings after spec = values
  cleared : desired.state = .exact →
    ∀ spec ∈ declaration.attributes, spec.isList = false → spec.identity = false →
      declaration.isEnableAttribute spec.name = false → requested? desired spec = none →
        spec.appliesTo .modify = true → holdings after spec = []
  enabled : desired.state = .enabled →
    ∀ flag ∈ declaration.enable, isOn declaration flag after = true
  disabled : desired.state = .disabled →
    ∀ flag ∈ declaration.enable, isOn declaration flag after = false
  /-- Other attributes are as they were, the flag among them unless it is forced. -/
  kept : (desired.state = .absent → NamesList declaration desired) →
    ∀ spec ∈ declaration.attributes, spec.isList = false → spec.identity = false →
      (declaration.isEnableAttribute spec.name = true →
        desired.state ≠ .enabled ∧ desired.state ≠ .disabled) →
      (desired.state = .absent ∨ declaration.isEnableAttribute spec.name = true ∨
        spec.appliesTo (actionTo before) = false ∨
          desired.state ≠ .exact ∧ requested? desired spec = none) →
        holdings after spec = holdings before spec
  created : desired.state ≠ .absent → declaration.creation = .explicit → after.isSome

theorem mem_map_toJson {v : Scalar} {scalars : List Scalar} :
    v.toJson ∈ scalars.map Scalar.toJson ↔ v ∈ scalars :=
  List.mem_map_of_injective Scalar.toJson_injective

theorem mem_requested {v : Scalar} :
    v.toJson ∈ requested desired spec ↔ v ∈ (asked desired spec).getD [] := by
  unfold requested
  rw [requested?]
  cases asked desired spec with
  | none => simp
  | some scalars => exact mem_map_toJson

variable (regular : declaration.Regular)
  (hheld : ∀ entry ∈ held, entry.Sound declaration allowed)

include regular hheld

omit hheld in
theorem hasLists_iff : desired.hasLists declaration = true ↔ NamesList declaration desired := by
  unfold DesiredState.hasLists NamesList
  rw [List.any_eq_true]
  constructor
  · rintro ⟨name, hname, hany⟩
    obtain ⟨spec, hattribute, hlist⟩ := (Option.any_eq_true _ _).1 hany
    obtain ⟨hspec, rfl⟩ := regular.attribute?_eq_some_iff.1 hattribute
    exact ⟨spec, hspec, hlist, (desired.attributes.contains_iff spec.name).2 hname⟩
  · rintro ⟨spec, hspec, hlist, hname⟩
    refine ⟨spec.name, (desired.attributes.contains_iff spec.name).1 hname, ?_⟩
    rw [regular.attribute?_eq_some_iff.2 ⟨hspec, rfl⟩, Option.any_some, hlist]

theorem holdings_eq (hspec : spec ∈ declaration.attributes) :
    holdings (held.map (·.attrs)) spec = (stock held spec).map Scalar.toJson := by
  cases held with
  | none => rfl
  | some entry => exact (hheld entry rfl).stored.valuesOf_eq regular hspec

theorem isOn_eq {flag : EnableSpec} (henable : declaration.enable = some flag) :
    isOn declaration flag (held.map (·.attrs)) = enabledIn declaration held := by
  obtain ⟨spec, hspec, hname, -⟩ := regular.flag_declared flag henable
  unfold isOn
  rw [enabledIn, henable]
  simp only [regular.attribute?_eq_some_iff.2 ⟨hspec, hname⟩, Option.map_some,
    holdings_eq regular hheld hspec]
  cases stock held spec with
  | nil => rfl
  | cons v more => cases v <;> rfl

omit regular hheld in
theorem exists_of_mem_requested {value : Json} (h : value ∈ requested desired spec) :
    ∃ v : Scalar, v.toJson = value := by
  unfold requested at h
  rw [requested?] at h
  cases hasked : asked desired spec with
  | none => simp [hasked] at h
  | some scalars =>
    rw [hasked, Option.map_some, Option.getD_some] at h
    obtain ⟨v, -, hv⟩ := List.mem_map.1 h
    exact ⟨v, hv⟩

/-- To tell the values of an attribute it is enough to tell its scalars. -/
theorem mem_holdings_iff (hspec : spec ∈ declaration.attributes) {p : Json → Prop}
    (hvalue : ∀ value, p value → ∃ v : Scalar, v.toJson = value)
    (h : ∀ v : Scalar, v ∈ stock held spec ↔ p v.toJson) (value : Json) :
    value ∈ holdings (held.map (·.attrs)) spec ↔ p value := by
  rw [holdings_eq regular hheld hspec]
  constructor
  · intro hmem
    obtain ⟨v, hv, rfl⟩ := List.mem_map.1 hmem
    exact (h v).1 hv
  · intro hp
    obtain ⟨v, rfl⟩ := hvalue value hp
    exact mem_map_toJson.2 ((h v).2 hp)

theorem exists_of_mem_holdings (hspec : spec ∈ declaration.attributes) {value : Json}
    (h : value ∈ holdings (held.map (·.attrs)) spec) : ∃ v : Scalar, v.toJson = value := by
  rw [holdings_eq regular hheld hspec] at h
  obtain ⟨v, -, hv⟩ := List.mem_map.1 h
  exact ⟨v, hv⟩

theorem toJson_mem_holdings (hspec : spec ∈ declaration.attributes) {v : Scalar} :
    v.toJson ∈ holdings (held.map (·.attrs)) spec ↔ v ∈ stock held spec := by
  rw [holdings_eq regular hheld hspec, mem_map_toJson]

theorem nodup_holdings (hspec : spec ∈ declaration.attributes) :
    (holdings (held.map (·.attrs)) spec).Nodup := by
  rw [holdings_eq regular hheld hspec]
  apply List.Nodup.map Scalar.toJson_injective
  cases held with
  | none => exact .nil
  | some entry => exact (hheld entry rfl).stored.nodup regular hspec

omit regular hheld in
theorem actionTo_eq (held : Option Entry) : actionTo (held.map (·.attrs)) = actionOn held := by
  unfold actionTo
  rw [actionOn, Option.isNone_map]

/-- An object that stores what it was to store. -/
theorem achieved_of_settled (valid : Valid declaration desired identity texts)
    (hheld' : ∀ entry ∈ held', entry.Sound declaration allowed)
    (hgone : desired.state = .absent → desired.hasLists declaration = false → held' = none)
    (hsame : (desired.state = .absent → desired.hasLists declaration = true) →
      SameGoals declaration desired held held')
    (hsettled : Settled declaration desired held') :
    Achieved declaration desired (held.map (·.attrs)) (held'.map (·.attrs)) := by
  constructor
  case gone =>
    intro hstate hnone
    rw [← hasLists_iff regular, Bool.not_eq_true] at hnone
    rw [hgone hstate hnone, Option.map_none]
  case reduced =>
    intro hstate hsome spec hspec hlist
    apply mem_holdings_iff regular hheld' hspec
    · intro value h
      exact exists_of_mem_holdings regular hheld hspec h.1
    · intro v
      have hgoals := hsame fun _ ↦ (hasLists_iff regular).2 hsome
      rw [hsettled.mem_stock_iff hgoals hspec hlist, ListGoal, hstate,
        toJson_mem_holdings regular hheld hspec, mem_requested]
  case united =>
    intro hpresent hnotExact spec hspec hlist
    apply mem_holdings_iff regular hheld' hspec
    · intro value h
      exact h.elim (exists_of_mem_holdings regular hheld hspec) exists_of_mem_requested
    · intro v
      rw [hsettled.mem_stock_iff (hsame fun habsent ↦ absurd habsent hpresent) hspec hlist, ListGoal,
        toJson_mem_holdings regular hheld hspec, mem_requested]
      cases hstate : desired.state with
      | present | enabled | disabled => rfl
      | exact => exact absurd hstate hnotExact
      | absent => exact absurd hstate hpresent
  case replaced =>
    intro hexact spec hspec hlist
    apply mem_holdings_iff regular hheld' hspec
    · intro value h
      exact exists_of_mem_requested h
    · intro v
      rw [hsettled.mem_stock_iff (hsame (by simp [hexact])) hspec hlist, ListGoal, hexact,
        mem_requested]
  case nodup =>
    intro spec hspec
    exact nodup_holdings regular hheld' hspec
  case assigned =>
    intro hpresent spec hspec hscalar values hrequested happlies
    obtain ⟨scalars, hasked, rfl⟩ := Option.map_eq_some_iff.1 hrequested
    have hasks := asks_of_asked valid regular hspec hasked
    have hconsiders : considers declaration (actionOn held) false spec = true := by
      rw [actionTo_eq] at happlies
      simp [considers, hasks.identity, hasks.unflagged, happlies]
    have hstock := hsettled.stock_eq (hsame fun habsent ↦ absurd habsent hpresent) hspec hscalar
      hasks.identity (by simp [hasks.unflagged])
    rw [holdings_eq regular hheld' hspec, hstock, scalarGoal_of_asked hpresent hconsiders hasked]
  case cleared =>
    intro hexact spec hspec hscalar hidentity hunflagged hrequested happlies
    have hasked : asked desired spec = none := Option.map_eq_none_iff.1 hrequested
    have hadd := (regular.scalar_plain spec hspec hscalar).2.2
    have hconsiders : considers declaration (actionOn held) false spec = true := by
      rcases actionOn_cases held with h | h <;>
        simp [considers, h, hidentity, hunflagged, hadd, happlies]
    have hstock := hsettled.stock_eq (hsame (by simp [hexact])) hspec hscalar hidentity
      (by simp [hunflagged])
    rw [holdings_eq regular hheld' hspec, hstock, scalarGoal_of_cleared hexact hconsiders hasked,
      List.map_nil]
  case enabled =>
    intro henabled flag henable
    rw [isOn_eq regular hheld' henable]
    exact hsettled.flag true flag (forcedFlag_eq_some_iff.2 ⟨by rw [henabled]; rfl, henable⟩)
  case disabled =>
    intro hdisabled flag henable
    rw [isOn_eq regular hheld' henable]
    exact hsettled.flag false flag (forcedFlag_eq_some_iff.2 ⟨by rw [hdisabled]; rfl, henable⟩)
  case kept =>
    intro hkeeps spec hspec hscalar hidentity hflag hcase
    have hunforced (hflagged : declaration.isEnableAttribute spec.name = true) :
        forcedFlag declaration desired.state = none := by
      simp [forcedFlag, TargetState.forcedEnable_eq_none_iff.2 (hflag hflagged)]
    have hgoals := hsame fun habsent ↦ (hasLists_iff regular).2 (hkeeps habsent)
    have hstock := hsettled.stock_eq hgoals hspec hscalar hidentity hunforced
    have hgoal : scalarGoal declaration desired held spec = stock held spec := by
      apply scalarGoal_of_kept
      rw [actionTo_eq] at hcase
      rcases hcase with habsent | hflagged | hout | ⟨hnotExact, hrequested⟩
      · exact .inl habsent
      · exact .inr (.inl (by simp [considers, hflagged]))
      · exact .inr (.inl (by simp [considers, hout]))
      · exact .inr (.inr ⟨hnotExact, Option.map_eq_none_iff.1 hrequested⟩)
    rw [holdings_eq regular hheld' hspec, holdings_eq regular hheld hspec, hstock, hgoal]
  case created =>
    intro hpresent hexplicit
    rw [Option.isSome_map]
    exact hsettled.exists_of_explicit hpresent hexplicit

end Ensure

namespace Directory

open Exchange Entry Ensure

variable {history : History} {directory : Directory} {schema : ObjectSchema}
  {desired : DesiredState}

/-- A run that succeeds makes of its object what the request asks for, and leaves every other object
as it was. -/
theorem ensure_refines (reached : Reached history directory)
    (hschema : schema ∈ ObjectSchema.builtins) (hservice : schema.name ≠ ObjectSchema.service.name)
    (hdry : desired.dryRun = false)
    (hunambiguous : ∀ texts, target? schema.toDeclaration desired = some texts →
      Unambiguous ((schema, desired) :: history) schema.name texts)
    (hok : (Exchange.run transport (Ensure.run schema.toDeclaration desired)
      directory.clearFaults).1.result.isOk) :
    let after := (Exchange.run transport (Ensure.run schema.toDeclaration desired)
      directory.clearFaults).2
    ∃ texts, target? schema.toDeclaration desired = some texts ∧
      Achieved schema.toDeclaration desired (directory.object? schema.name texts)
        (after.object? schema.name texts) ∧
      ∀ type other, type ≠ schema.name ∨ ¬sameIdentity texts other →
        after.object? type other = directory.object? type other := by
  intro after
  have hregular := ObjectSchema.regular_of_mem_builtins hschema
  have hidle := ObjectSchema.idle_of_mem_builtins hschema hservice
  have hkept := reached.clearFaults.kept
  obtain ⟨identity, texts, calls, final, request, leads⟩ :=
    exists_leads hkept rfl hschema hservice hdry hunambiguous hok
  have htarget : target? schema.toDeclaration desired = some texts :=
    (target?_eq_some hregular).2 ⟨identity, request.validate_eq, request.valid⟩
  have hrequested := hkept.requested schema desired
  obtain ⟨-, rest, hrest, hdone⟩ := leads.after_run request hrequested
  obtain ⟨rfl, hfinal⟩ := hdone hok
  have hbefore := orderly_of_kept hschema hrequested texts
  have hafter := orderly_of_kept hschema (hkept.run hschema desired) texts
  refine ⟨texts, htarget, ?_, fun type other hapart ↦ ?_⟩
  · rw [object?_eq, object?_eq]
    refine achieved_of_settled hregular hbefore.sound request.valid hafter.sound
      hrest.due.eq_none_of_absent (fun hkeeps ↦ ?_)
      (hrest.due.settled hregular request.valid request.allowed hafter.sound)
    · have hsame := leads.due.sameGoals_of_course hregular request.valid request.allowed hkeeps
        request.unambiguous hidle hbefore leads.course
      rw [← entriesOf_of_get? hfinal] at hsame
      exact hsame
  · have hturned := (run_confined hschema (confined_of_target hschema history htarget) hrequested).2
    rw [object?_eq, object?_eq, hturned.others type other hapart]
    rfl

/-- The user with one other mail address and nothing else. -/
def exactUser : DesiredState :=
  { disabledUser with
    attributes := .ofList [("mail", .list [.str "alice@example.com"])]
    state := .exact }

theorem ensure_refines_exactUser :
    let before := (Exchange.run transport (Ensure.run ObjectSchema.user.toDeclaration disabledUser)
      (ofRegistry .builtin)).2
    let after := (Exchange.run transport (Ensure.run ObjectSchema.user.toDeclaration exactUser)
      before.clearFaults).2
    ∃ texts, target? ObjectSchema.user.toDeclaration exactUser = some texts ∧
      Achieved ObjectSchema.user.toDeclaration exactUser (before.object? "user" texts)
        (after.object? "user" texts) ∧
      ∀ type other, type ≠ "user" ∨ ¬sameIdentity texts other →
        after.object? type other = before.object? type other :=
  have hmem : ObjectSchema.user ∈ ObjectSchema.builtins := by simp [ObjectSchema.builtins]
  ensure_refines (.ensure disabledUser .empty hmem) hmem (by decide +kernel) rfl
    (fun texts _ ↦ Spelled.unambiguous (by decide +kernel) _ texts) (by decide +kernel)

end Directory

end DirectoryReconcile
