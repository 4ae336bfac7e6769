import DirectoryReconcile.Proofs.Schema.Reading
import DirectoryReconcile.Schema.Registry
import DirectoryReconcile.Directory.Operation
import Mathlib.Data.List.Nodup

/-!
# What the known types have in common

The properties of a declaration that reconciliation with the directory rests on: attributes are told
apart by their names and by their keys, values can be read back, every list can be written at any
time, and no two list attributes share a place in one call. All known types have them.
-/

namespace DirectoryReconcile

namespace Declaration

/-- Methods that are told apart by their names alone. -/
def commandMethods (declaration : Declaration) : List String :=
  [declaration.methods.find, declaration.methods.modify] ++
    if declaration.enable.isSome then [declaration.methods.enable, declaration.methods.disable]
    else []

/-- Two routes do not take values at the same place of one method. -/
def Apart (adding : Bool) (first second : AttributeSpec) : Prop :=
  ∀ r ∈ first.route, ∀ s ∈ second.route, first.name ≠ second.name →
    r.method adding = s.method adding →
      r.style = .keyword ∧ s.style = .keyword ∧ r.param ≠ s.param

instance (adding : Bool) (first second : AttributeSpec) : Decidable (Apart adding first second) := by
  unfold Apart
  infer_instance

/-- A declaration that its service can be reconciled with. -/
structure Regular (declaration : Declaration) : Prop where
  names_nodup : (declaration.attributes.map (·.name)).Nodup
  keys_nodup : (declaration.attributes.map (·.responseKey)).Nodup
  keys_plain : ∀ spec ∈ declaration.attributes, '=' ∉ spec.responseKey.toList
  /-- No attribute has the name of an option with a meaning of its own. -/
  names_free : ∀ spec ∈ declaration.attributes,
    spec.name ∉ Operation.controlKeys ++ ["addattr", "delattr", "setattr"]
  paired : ∀ spec ∈ declaration.attributes, spec.IsPaired
  identity_text : ∀ spec ∈ declaration.attributes, spec.identity = true →
    spec.cardinality = .scalar ∧ spec.kind = .str ∧ spec.route = none
  /-- The texts of an identity are compared as they are. -/
  identity_whole : ∀ spec ∈ declaration.attributes, spec.identity = true →
    ∀ normalizer ∈ spec.normalizer, normalizer.name ≠ "strip_realm"
  list_text : ∀ spec ∈ declaration.attributes, spec.isList = true →
    spec.kind = .str ∧ spec.identity = false ∧ spec.appliesTo .add = true ∧
      spec.appliesTo .modify = true
  scalar_plain : ∀ spec ∈ declaration.attributes, spec.isList = false →
    spec.route = none ∧ (spec.identity = true ∨ spec.encoding = .plain) ∧
      spec.appliesTo .add = true
  flag_declared : ∀ flag ∈ declaration.enable, ∃ spec ∈ declaration.attributes,
    spec.name = flag.attr ∧ spec.isList = false ∧ spec.kind = .bool ∧ spec.identity = false ∧
      spec.encoding = .plain ∧ spec.normalizer.isNone ∧
      spec.responseKey ≠ ResponseHook.aliasesKey
  /-- An object that its first list value creates consists of its identity and of routed lists. -/
  implicit_lists : declaration.creation = .implicit → declaration.enable = none ∧
    ∀ spec ∈ declaration.attributes, spec.identity = true ∨ spec.isList = true ∧ spec.route.isSome
  commands_nodup : (commandMethods declaration).Nodup
  /-- The method of a route is none of the commands, nor, of an object with a call that creates it,
  the one of that call. -/
  routes_named : ∀ spec ∈ declaration.attributes, ∀ route ∈ spec.route, ∀ adding,
    route.method adding ∉ commandMethods declaration ∧
      (declaration.creation = .explicit → route.method adding ≠ declaration.methods.add)
  add_named : declaration.methods.add ∉ commandMethods declaration
  remove_named : declaration.methods.remove ∉
    declaration.methods.add :: commandMethods declaration
  /-- No method adds values of one list and removes those of another. -/
  routes_directed : ∀ first ∈ declaration.attributes, ∀ r ∈ first.route,
    ∀ second ∈ declaration.attributes, ∀ s ∈ second.route,
      r.addMethod ≠ s.removeMethod ∧ r.addMethod ≠ declaration.methods.remove
  routes_apart : ∀ first ∈ declaration.attributes, ∀ second ∈ declaration.attributes, ∀ adding,
    Apart adding first second
  /-- The arguments that remove a whole object carry no list values. -/
  remove_whole : ∀ spec ∈ declaration.attributes, ∀ route ∈ spec.route,
    route.removeMethod = declaration.methods.remove →
      route.style = .keyword ∧ declaration.removeArgs.get? route.param = none
  matched : declaration.findPredicate = some .identityMatches
  findArgs_empty : declaration.findArgs.isEmpty = true
  identified : declaration.identityAttributes ≠ []

theorem mem_identityAttributes {declaration : Declaration} {spec : AttributeSpec} :
    spec ∈ declaration.identityAttributes ↔
      spec ∈ declaration.attributes ∧ spec.identity = true := by
  unfold Declaration.identityAttributes
  rw [List.mem_filter]

theorem named?_eq_some_iff {attributes : List AttributeSpec}
    (hnodup : (attributes.map (·.name)).Nodup) {name : String} {spec : AttributeSpec} :
    AttributeSpec.named? attributes name = some spec ↔ spec ∈ attributes ∧ spec.name = name := by
  constructor
  · intro h
    exact ⟨List.mem_of_find?_eq_some h, by simpa using List.find?_some h⟩
  · rintro ⟨hspec, rfl⟩
    unfold AttributeSpec.named?
    cases hfind : attributes.find? fun other ↦ other.name = spec.name with
    | none => exact absurd hspec fun hmem ↦ by simpa using List.find?_eq_none.1 hfind spec hmem
    | some other =>
      have hname : other.name = spec.name := by simpa using List.find?_some hfind
      rw [List.inj_on_of_nodup_map hnodup (List.mem_of_find?_eq_some hfind) hspec hname]

namespace Regular

variable {declaration : Declaration} (regular : declaration.Regular)

include regular

theorem attribute?_eq_some_iff {name : String} {spec : AttributeSpec} :
    declaration.attribute? name = some spec ↔ spec ∈ declaration.attributes ∧ spec.name = name :=
  named?_eq_some_iff regular.names_nodup

theorem attribute?_of_mem {spec : AttributeSpec} (h : spec ∈ declaration.attributes) :
    declaration.attribute? spec.name = some spec :=
  regular.attribute?_eq_some_iff.2 ⟨h, rfl⟩

theorem eq_of_name_eq {first second : AttributeSpec} (hfirst : first ∈ declaration.attributes)
    (hsecond : second ∈ declaration.attributes) (h : first.name = second.name) : first = second :=
  List.inj_on_of_nodup_map regular.names_nodup hfirst hsecond h

theorem eq_of_responseKey_eq {first second : AttributeSpec} (hfirst : first ∈ declaration.attributes)
    (hsecond : second ∈ declaration.attributes) (h : first.responseKey = second.responseKey) :
    first = second :=
  List.inj_on_of_nodup_map regular.keys_nodup hfirst hsecond h

theorem attributeOfResponseKey?_of_mem {spec : AttributeSpec} (h : spec ∈ declaration.attributes) :
    declaration.attributeOfResponseKey? spec.responseKey = some spec := by
  unfold attributeOfResponseKey?
  cases hfind : declaration.attributes.find? fun other ↦ other.responseKey = spec.responseKey with
  | none => exact absurd h fun hmem ↦ by simpa using List.find?_eq_none.1 hfind spec hmem
  | some other =>
    have hkey : other.responseKey = spec.responseKey := by simpa using List.find?_some hfind
    rw [regular.eq_of_responseKey_eq (List.mem_of_find?_eq_some hfind) h hkey]

/-- The flag is neither a list nor part of the identity. -/
theorem flag_plain {spec : AttributeSpec} (hspec : spec ∈ declaration.attributes)
    (hflag : declaration.isEnableAttribute spec.name = true) :
    spec.isList = false ∧ spec.identity = false := by
  obtain ⟨flag, henable, hname⟩ := (Option.any_eq_true _ _).1 hflag
  obtain ⟨other, hother, hname', hscalar, -, hidentity, -⟩ := regular.flag_declared flag henable
  obtain rfl := regular.eq_of_name_eq hother hspec
    (hname'.trans (by simpa using hname))
  exact ⟨hscalar, hidentity⟩

/-- The flag is the one attribute that its name belongs to. -/
theorem isEnableAttribute_iff {flag : EnableSpec} (henable : declaration.enable = some flag)
    {own spec : AttributeSpec} (hown : declaration.attribute? flag.attr = some own)
    (hspec : spec ∈ declaration.attributes) :
    declaration.isEnableAttribute spec.name = true ↔ spec = own := by
  obtain ⟨hmem, hname⟩ := regular.attribute?_eq_some_iff.1 hown
  simp only [isEnableAttribute, henable, Option.any_some, decide_eq_true_eq]
  rw [← hname]
  exact ⟨fun h ↦ (regular.eq_of_name_eq hmem hspec h).symm, fun h ↦ by rw [h]⟩

theorem list_unflagged {spec : AttributeSpec} (hspec : spec ∈ declaration.attributes)
    (hlist : spec.isList = true) : declaration.isEnableAttribute spec.name = false := by
  by_contra hflag
  simp [(regular.flag_plain hspec (by simpa using hflag)).1] at hlist

/-- The texts of an identity are kept as they are. -/
theorem keeps_identity {spec : AttributeSpec} (hspec : spec ∈ declaration.attributes)
    (hidentity : spec.identity = true) (text : String) : spec.Keeps (.str text) := by
  have hkind := (regular.identity_text spec hspec hidentity).2.1
  have hpaired := regular.paired spec hspec
  have hread : spec.normalizeElement (Scalar.str text).toJson = .ok (.str text) := by
    rcases hpaired with ⟨-, hnone | ⟨hstrip, -⟩⟩ | ⟨-, hunwrap⟩ | ⟨-, hunwrap⟩
    · unfold AttributeSpec.normalizeElement
      rw [hnone, hkind]
      rfl
    · exact absurd rfl (regular.identity_whole spec hspec hidentity .stripRealm hstrip)
    · unfold AttributeSpec.normalizeElement
      rw [hunwrap, hkind]
      rfl
    · unfold AttributeSpec.normalizeElement
      rw [hunwrap, hkind]
      rfl
  exact hpaired.keeps hread (by simp)

end Regular

end Declaration

namespace ObjectSchema

open Declaration

theorem isPaired_of_plain {spec : AttributeSpec} (hencoding : spec.encoding = .plain)
    (hnormalizer : spec.normalizer = none) : spec.IsPaired :=
  .inl ⟨hencoding, .inl hnormalizer⟩

theorem isPaired_dnsName {spec : AttributeSpec} (h : spec.encoding ≠ .base64) :
    (dnsName spec).IsPaired :=
  .inr (.inr ⟨h, rfl⟩)

theorem isPaired_builtins : ∀ schema ∈ builtins, ∀ spec ∈ schema.attributes, spec.IsPaired := by
  simp only [builtins, List.forall_mem_cons, List.not_mem_nil, false_implies, implies_true, and_true]
  refine ⟨?group, ?user, ?service, ?caacl, ?ca, ?dnszone, ?dnsrecord⟩
  case group | caacl | ca =>
    repeat' first
      | exact List.forall_mem_nil _
      | refine List.forall_mem_cons.2 ⟨isPaired_of_plain rfl rfl, ?_⟩
  case user =>
    refine List.forall_mem_append.2 ⟨List.forall_mem_append.2 ⟨?_, ?_⟩, ?_⟩
    · exact List.forall_mem_cons.2
        ⟨isPaired_of_plain rfl rfl, List.forall_mem_map.2 fun _ _ ↦ isPaired_of_plain rfl rfl⟩
    · exact List.forall_mem_map.2 fun _ _ ↦ isPaired_of_plain rfl rfl
    · simp only [List.forall_mem_cons]
      refine ⟨isPaired_of_plain rfl rfl, isPaired_of_plain rfl rfl, isPaired_of_plain rfl rfl, ?_, ?_,
        List.forall_mem_nil _⟩
      · exact .inr (.inl ⟨by decide, rfl⟩)
      · exact .inl ⟨rfl, .inr ⟨rfl, rfl⟩⟩
  case service =>
    refine List.forall_mem_append.2 ⟨List.forall_mem_append.2 ⟨?_, ?_⟩, ?_⟩
    · refine List.forall_mem_cons.2 ⟨isPaired_of_plain rfl rfl, List.forall_mem_cons.2 ⟨?_, ?_⟩⟩
      · exact .inr (.inl ⟨by decide, rfl⟩)
      · repeat' first
          | exact List.forall_mem_nil _
          | refine List.forall_mem_cons.2 ⟨isPaired_of_plain rfl rfl, ?_⟩
    · exact List.forall_mem_map.2 fun _ _ ↦ isPaired_of_plain rfl rfl
    · exact List.forall_mem_map.2 fun _ _ ↦ isPaired_of_plain rfl rfl
  case dnszone =>
    refine List.forall_mem_cons.2 ⟨isPaired_dnsName (by decide), List.forall_mem_cons.2
      ⟨isPaired_dnsName (by decide), List.forall_mem_cons.2 ⟨isPaired_dnsName (by decide), ?_⟩⟩⟩
    repeat' first
      | exact List.forall_mem_nil _
      | refine List.forall_mem_cons.2 ⟨isPaired_of_plain rfl rfl, ?_⟩
  case dnsrecord =>
    refine List.forall_mem_cons.2 ⟨isPaired_dnsName (by decide), List.forall_mem_cons.2
      ⟨.inr (.inr ⟨by decide, rfl⟩), ?_⟩⟩
    exact List.forall_mem_map.2 fun _ _ ↦ isPaired_of_plain rfl rfl

theorem regular_of_mem_builtins {schema : ObjectSchema} (h : schema ∈ builtins) :
    schema.toDeclaration.Regular where
  names_nodup := (by decide +kernel : ∀ s ∈ builtins, (s.attributes.map (·.name)).Nodup) schema h
  keys_nodup :=
    (by decide +kernel : ∀ s ∈ builtins, (s.attributes.map (·.responseKey)).Nodup) schema h
  keys_plain := (by decide +kernel :
    ∀ s ∈ builtins, ∀ spec ∈ s.attributes, '=' ∉ spec.responseKey.toList) schema h
  names_free := (by decide +kernel : ∀ s ∈ builtins, ∀ spec ∈ s.attributes,
    spec.name ∉ Operation.controlKeys ++ ["addattr", "delattr", "setattr"]) schema h
  paired := isPaired_builtins schema h
  identity_text := (by decide +kernel : ∀ s ∈ builtins, ∀ spec ∈ s.attributes,
    spec.identity = true → spec.cardinality = .scalar ∧ spec.kind = .str ∧ spec.route = none) schema h
  identity_whole := (by decide +kernel : ∀ s ∈ builtins, ∀ spec ∈ s.attributes,
    spec.identity = true → ∀ normalizer ∈ spec.normalizer, normalizer.name ≠ "strip_realm") schema h
  list_text := (by decide +kernel : ∀ s ∈ builtins, ∀ spec ∈ s.attributes, spec.isList = true →
    spec.kind = .str ∧ spec.identity = false ∧ spec.appliesTo .add = true ∧
      spec.appliesTo .modify = true) schema h
  scalar_plain := (by decide +kernel : ∀ s ∈ builtins, ∀ spec ∈ s.attributes,
    spec.isList = false → spec.route = none ∧ (spec.identity = true ∨ spec.encoding = .plain) ∧
      spec.appliesTo .add = true) schema h
  flag_declared := (by decide +kernel : ∀ s ∈ builtins, ∀ flag ∈ s.enable,
    ∃ spec ∈ s.attributes, spec.name = flag.attr ∧ spec.isList = false ∧ spec.kind = .bool ∧
      spec.identity = false ∧ spec.encoding = .plain ∧ spec.normalizer.isNone ∧
      spec.responseKey ≠ ResponseHook.aliasesKey) schema h
  implicit_lists := (by decide +kernel : ∀ s ∈ builtins, s.creation = .implicit →
    s.enable = none ∧ ∀ spec ∈ s.attributes,
      spec.identity = true ∨ spec.isList = true ∧ spec.route.isSome) schema h
  commands_nodup := (by decide +kernel :
    ∀ s ∈ builtins, (commandMethods s.toDeclaration).Nodup) schema h
  routes_named := (by decide +kernel : ∀ s ∈ builtins, ∀ spec ∈ s.attributes,
    ∀ route ∈ spec.route, ∀ adding, route.method adding ∉ commandMethods s.toDeclaration ∧
      (s.creation = .explicit → route.method adding ≠ s.methods.add)) schema h
  add_named := (by decide +kernel :
    ∀ s ∈ builtins, s.methods.add ∉ commandMethods s.toDeclaration) schema h
  remove_named := (by decide +kernel : ∀ s ∈ builtins,
    s.methods.remove ∉ s.methods.add :: commandMethods s.toDeclaration) schema h
  routes_directed := (by decide +kernel : ∀ s ∈ builtins, ∀ first ∈ s.attributes,
    ∀ r ∈ first.route, ∀ second ∈ s.attributes, ∀ t ∈ second.route,
      r.addMethod ≠ t.removeMethod ∧ r.addMethod ≠ s.methods.remove) schema h
  routes_apart := (by decide +kernel : ∀ s ∈ builtins, ∀ first ∈ s.attributes,
    ∀ second ∈ s.attributes, ∀ adding, Apart adding first second) schema h
  remove_whole := (by decide +kernel : ∀ s ∈ builtins, ∀ spec ∈ s.attributes,
    ∀ route ∈ spec.route, route.removeMethod = s.methods.remove →
      route.style = .keyword ∧ s.removeArgs.get? route.param = none) schema h
  matched := by
    simp only [builtins, List.mem_cons, List.not_mem_nil, or_false] at h
    rcases h with rfl | rfl | rfl | rfl | rfl | rfl | rfl <;> rfl
  findArgs_empty := (by decide +kernel : ∀ s ∈ builtins, s.findArgs.isEmpty = true) schema h
  identified := by
    simp only [builtins, List.mem_cons, List.not_mem_nil, or_false] at h
    rcases h with rfl | rfl | rfl | rfl | rfl | rfl | rfl <;> exact List.cons_ne_nil _ _

/-- A name belongs to one known type. -/
theorem eq_of_name_eq {first second : ObjectSchema} (hfirst : first ∈ builtins)
    (hsecond : second ∈ builtins) (h : first.name = second.name) : first = second :=
  List.inj_on_of_nodup_map (by decide +kernel : (builtins.map (·.name)).Nodup) hfirst hsecond h

/-- Records are the only objects that their first list values create. -/
theorem eq_dnsrecord_of_implicit {schema : ObjectSchema} (h : schema ∈ builtins)
    (himplicit : schema.creation = .implicit) : schema = dnsrecord :=
  eq_of_name_eq h (by simp [builtins]) ((by decide +kernel :
    ∀ s ∈ builtins, s.creation = .implicit → s.name = dnsrecord.name) schema h himplicit)

end ObjectSchema

end DirectoryReconcile
