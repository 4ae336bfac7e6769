import DirectoryReconcile.Proofs.Schema.Regular
import Mathlib.Data.List.Lattice

/-!
# Accepted declarations

A declaration is accepted exactly if it is well formed. The checks go through the attributes and
through the methods of their routes, keep what they have seen and stop at the first fault; together
they ask for what a well-formed declaration is, whatever its length and in whatever order its parts
stand.
-/

namespace DirectoryReconcile

namespace AttributeSpec

/-- An attribute that can stand in a declaration by itself. -/
structure Admissible (spec : AttributeSpec) : Prop where
  searchable : spec.identity = true → spec.isList = true → spec.appliesTo .find = true
  routed : ∀ route ∈ spec.route, spec.isList = true ∧ spec.identity = false ∧
    route.addMethod ≠ "" ∧ route.removeMethod ≠ ""

/-- The methods of a positional route. -/
def positionalNames (spec : AttributeSpec) : List String :=
  (spec.route.toList.filter fun route ↦ route.style = .positional).flatMap fun route ↦
    [route.addMethod, route.removeMethod]

/-- An attribute that can carry the enabled flag. -/
structure IsFlag (spec : AttributeSpec) : Prop where
  unnamed : spec.identity = false
  scalar : spec.isList = false
  bool : spec.kind = .bool

end AttributeSpec

namespace Declaration

/-- A declaration that says what it has to say, and says nothing twice. -/
structure WellFormed (declaration : Declaration) : Prop where
  names_nodup : (declaration.attributes.map (·.name)).Nodup
  admissible : ∀ spec ∈ declaration.attributes, spec.Admissible
  named : ∃ spec ∈ declaration.attributes, spec.identity = true
  /-- No method takes values of two lists, or those of two phases, as a positional argument. -/
  positional_nodup : (declaration.attributes.flatMap (·.positionalNames)).Nodup
  methods_named : declaration.methods.add ≠ "" ∧ declaration.methods.modify ≠ "" ∧
    declaration.methods.remove ≠ "" ∧ declaration.methods.find ≠ ""
  flagged : ∀ flag ∈ declaration.enable,
    (∃ spec ∈ declaration.attributes, spec.name = flag.attr ∧ spec.IsFlag) ∧
      declaration.methods.enable ≠ "" ∧ declaration.methods.disable ≠ ""

/-! ## What is seen once -/

/-- Keys that are told apart from each other and from those seen before. -/
def Fresh (seen keys : List String) : Prop := keys.Nodup ∧ keys.Disjoint seen

theorem fresh_cons {seen keys : List String} {key : String} :
    Fresh seen (key :: keys) ↔ key ∉ seen ∧ Fresh (key :: seen) keys := by
  simp only [Fresh, List.nodup_cons, List.disjoint_cons_left, List.disjoint_cons_right]
  tauto

theorem fresh_nil {keys : List String} : Fresh [] keys ↔ keys.Nodup := by
  simp [Fresh]

variable {declaration : Declaration}

theorem routeFault?_eq_none_iff {spec : AttributeSpec} {route : ListRoute} :
    routeFault? spec route = none ↔ spec.isList = true ∧ spec.identity = false ∧
      route.addMethod ≠ "" ∧ route.removeMethod ≠ "" := by
  unfold routeFault?
  cases spec.isList <;> cases spec.identity <;> simp

theorem attributeFault?_eq_none_iff {seen : List String} {spec : AttributeSpec} :
    declaration.attributeFault? seen spec = none ↔ spec.name ∉ seen ∧ spec.Admissible := by
  have hadmissible : spec.Admissible ↔
      (spec.identity = true → spec.isList = true → spec.appliesTo .find = true) ∧
        spec.route.bind (routeFault? spec) = none := by
    rw [Option.bind_eq_none_iff]
    constructor
    · intro h
      exact ⟨h.searchable, fun route hroute ↦ routeFault?_eq_none_iff.2 (h.routed route hroute)⟩
    · rintro ⟨hsearchable, hrouted⟩
      exact ⟨hsearchable, fun route hroute ↦ routeFault?_eq_none_iff.1 (hrouted route hroute)⟩
  rw [hadmissible]
  unfold attributeFault?
  by_cases hseen : spec.name ∈ seen
  · simp [hseen]
  · cases spec.identity <;> cases spec.isList <;> cases spec.appliesTo .find <;> simp [hseen]

/-- The attributes pass if they are told apart by their names, and each of them can stand by
itself. -/
theorem attributesFault?_eq_none_iff {seen : List String} {specs : List AttributeSpec} :
    declaration.attributesFault? seen specs = none ↔
      Fresh seen (specs.map (·.name)) ∧ ∀ spec ∈ specs, spec.Admissible := by
  induction specs generalizing seen with
  | nil => simp [attributesFault?, Fresh]
  | cons spec rest ih =>
    rw [attributesFault?, Option.or_eq_none_iff, attributeFault?_eq_none_iff, ih, List.map_cons,
      fresh_cons, List.forall_mem_cons]
    tauto

theorem positionalFault?_eq_none_iff {seen entries : List (String × String)} :
    declaration.positionalFault? seen entries = none ↔
      Fresh (seen.map (·.1)) (entries.map (·.1)) := by
  induction entries generalizing seen with
  | nil => simp [positionalFault?, Fresh]
  | cons entry rest ih =>
    obtain ⟨method, owner⟩ := entry
    have hseen : seen.lookup method = none ↔ method ∉ seen.map (·.1) := by
      rw [List.lookup_eq_none_iff, List.mem_map]
      simp only [bne_iff_ne, not_exists, not_and]
      exact forall₂_congr fun pair _ ↦ ne_comm
    rw [List.map_cons, fresh_cons, ← hseen, positionalFault?]
    cases seen.lookup method with
    | some first => simp
    | none => simp [ih]

theorem map_positionalMethods (spec : AttributeSpec) :
    (positionalMethods spec).map (·.1) = spec.positionalNames := by
  unfold positionalMethods AttributeSpec.positionalNames
  cases spec.route with
  | none => rfl
  | some route => by_cases hstyle : route.style = .positional <;> simp [hstyle]

theorem identityFault?_eq_none_iff :
    declaration.identityFault? = none ↔ ∃ spec ∈ declaration.attributes, spec.identity = true := by
  unfold identityFault?
  rw [← List.any_eq_true]
  split <;> simp_all

theorem methodFault?_eq_none_iff :
    declaration.methodFault? = none ↔ declaration.methods.add ≠ "" ∧
      declaration.methods.modify ≠ "" ∧ declaration.methods.remove ≠ "" ∧
        declaration.methods.find ≠ "" := by
  simp [methodFault?]

/-- The flag passes if the first attribute with its name can carry it, and can be set both ways. -/
theorem flagFault?_eq_none_iff {flag : EnableSpec} :
    declaration.flagFault? flag = none ↔
      (∃ spec, declaration.attribute? flag.attr = some spec ∧ spec.IsFlag) ∧
        declaration.methods.enable ≠ "" ∧ declaration.methods.disable ≠ "" := by
  unfold flagFault?
  cases declaration.attribute? flag.attr with
  | none => simp
  | some spec =>
    have hflag : spec.IsFlag ↔ spec.identity = false ∧ spec.isList = false ∧ spec.kind = .bool :=
      ⟨fun h ↦ ⟨h.unnamed, h.scalar, h.bool⟩, fun h ↦ ⟨h.1, h.2.1, h.2.2⟩⟩
    simp only [Option.some.injEq, exists_eq_left', hflag]
    cases spec.identity <;> cases spec.isList <;> by_cases hkind : spec.kind = .bool <;>
      simp [hkind]

theorem enableFault?_eq_none_iff :
    declaration.enableFault? = none ↔
      ∀ flag ∈ declaration.enable, declaration.flagFault? flag = none := by
  unfold enableFault?
  cases declaration.enable with
  | none => simp
  | some flag => cases h : declaration.flagFault? flag <;> simp [h]

/-! ## Whole declarations -/

/-- Nothing is wrong with a declaration exactly if it is well formed. -/
theorem fault?_eq_none_iff : declaration.fault? = none ↔ declaration.WellFormed := by
  unfold fault?
  simp only [Option.or_eq_none_iff, attributesFault?_eq_none_iff, positionalFault?_eq_none_iff,
    identityFault?_eq_none_iff, methodFault?_eq_none_iff, enableFault?_eq_none_iff,
    flagFault?_eq_none_iff, List.map_nil, fresh_nil, List.map_flatMap, map_positionalMethods]
  constructor
  · rintro ⟨⟨⟨⟨⟨hnames, hadmissible⟩, hnamed⟩, hpositional⟩, hmethods⟩, hflagged⟩
    refine ⟨hnames, hadmissible, hnamed, hpositional, hmethods, fun flag hflag ↦ ?_⟩
    obtain ⟨⟨spec, hspec, hcarries⟩, hset⟩ := hflagged flag hflag
    obtain ⟨hmem, hname⟩ := (named?_eq_some_iff hnames).1 hspec
    exact ⟨⟨spec, hmem, hname, hcarries⟩, hset⟩
  · intro h
    refine ⟨⟨⟨⟨⟨h.names_nodup, h.admissible⟩, h.named⟩, h.positional_nodup⟩, h.methods_named⟩,
      fun flag hflag ↦ ?_⟩
    obtain ⟨⟨spec, hmem, hname, hcarries⟩, hset⟩ := h.flagged flag hflag
    exact ⟨⟨spec, (named?_eq_some_iff h.names_nodup).2 ⟨hmem, hname⟩, hcarries⟩, hset⟩

/-- A declaration is accepted, as it is, exactly if it is well formed. -/
theorem accept_iff_wellFormed (declaration : Declaration) :
    (∃ schema, declaration.accept = .ok schema ∧ schema.toDeclaration = declaration) ↔
      declaration.WellFormed := by
  rw [← fault?_eq_none_iff]
  unfold accept
  split
  next haccepted => exact ⟨fun _ ↦ haccepted, fun _ ↦ ⟨_, rfl, rfl⟩⟩
  next error hfault => simp [hfault]

end Declaration

namespace ObjectSchema

variable (schema : ObjectSchema)

theorem wellFormed : schema.WellFormed := Declaration.fault?_eq_none_iff.1 schema.accepted

/-- No two attributes of an accepted declaration have the same name. -/
theorem names_nodup : (schema.attributes.map (·.name)).Nodup := schema.wellFormed.names_nodup

/-- The flag of an accepted declaration is a declared attribute outside the identity, with a single
value that is true or false. -/
theorem exists_flag {flag : EnableSpec} (h : schema.enable = some flag) :
    ∃ spec, schema.attribute? flag.attr = some spec ∧ spec.IsFlag := by
  obtain ⟨⟨spec, hspec, hname, hflag⟩, -⟩ := schema.wellFormed.flagged flag h
  exact ⟨spec, (Declaration.named?_eq_some_iff schema.names_nodup).2 ⟨hspec, hname⟩, hflag⟩

end ObjectSchema

end DirectoryReconcile
