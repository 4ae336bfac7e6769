import DirectoryReconcile.Directory
import Mathlib.Tactic.Common

/-!
# The type that a method belongs to

Whether a type answers a method depends on the name of the method only, not on its arguments. The
known types answer disjoint sets of methods, so a directory of them finds the type of a method
wherever it stands in the registry.
-/

namespace DirectoryReconcile

namespace Operation

/-- The names of the methods that a type answers. -/
def methodNames (declaration : Declaration) : List String :=
  let methods := declaration.methods
  [methods.find, methods.add, methods.modify, methods.remove] ++
    (if declaration.enable.isSome then [methods.enable, methods.disable] else []) ++
    declaration.attributes.flatMap fun spec ↦
      (spec.route.map fun route ↦ [route.addMethod, route.removeMethod]).getD []

theorem mem_routedBy {declaration : Declaration} {adding : Bool} {method : String}
    {spec : AttributeSpec} :
    spec ∈ routedBy declaration adding method ↔
      spec ∈ declaration.attributes ∧ ∃ route, spec.route = some route ∧
        route.method adding = method := by
  simp [routedBy, Option.any_eq_true]

theorem mem_methodNames_of_routed {declaration : Declaration} {adding : Bool} {method : String}
    {spec : AttributeSpec} (h : spec ∈ routedBy declaration adding method) :
    method ∈ methodNames declaration := by
  obtain ⟨hspec, route, hroute, rfl⟩ := mem_routedBy.1 h
  refine List.mem_append.2 (.inr (List.mem_flatMap.2 ⟨spec, hspec, ?_⟩))
  cases adding <;> simp [hroute, ListRoute.method]

theorem mem_methodNames_cases {declaration : Declaration} {method : String}
    (h : method ∈ methodNames declaration) :
    method = declaration.methods.find ∨ method = declaration.methods.add ∨
      method = declaration.methods.modify ∨ method = declaration.methods.remove ∨
      ((method = declaration.methods.enable ∨ method = declaration.methods.disable) ∧
        declaration.enable.isSome) ∨
      ∃ adding spec, spec ∈ routedBy declaration adding method := by
  simp only [methodNames, List.mem_append, List.mem_cons, List.not_mem_nil, or_false,
    List.mem_flatMap] at h
  rcases h with ((h | h | h | h) | h) | ⟨spec, hspec, h⟩
  · exact .inl h
  · exact .inr (.inl h)
  · exact .inr (.inr (.inl h))
  · exact .inr (.inr (.inr (.inl h)))
  · split at h
    next henable => exact .inr (.inr (.inr (.inr (.inl ⟨by simpa using h, henable⟩))))
    next => simp at h
  · refine .inr (.inr (.inr (.inr (.inr ?_))))
    cases hroute : spec.route with
    | none => simp [hroute] at h
    | some route =>
      have hcases : method = route.addMethod ∨ method = route.removeMethod := by
        simpa [hroute] using h
      rcases hcases with rfl | rfl
      · exact ⟨true, spec, mem_routedBy.2 ⟨hspec, route, hroute, rfl⟩⟩
      · exact ⟨false, spec, mem_routedBy.2 ⟨hspec, route, hroute, rfl⟩⟩

theorem routedBy_eq_nil {declaration : Declaration} {method : String} (adding : Bool)
    (h : method ∉ methodNames declaration) : routedBy declaration adding method = [] :=
  List.eq_nil_iff_forall_not_mem.2 fun _ hspec ↦ h (mem_methodNames_of_routed hspec)

theorem ofMethod?_isSome_iff {declaration : Declaration} {method : String} {arguments : Arguments} :
    (ofMethod? declaration method arguments).isSome ↔ method ∈ methodNames declaration := by
  constructor
  · intro h
    by_contra hnot
    have hadds := routedBy_eq_nil true hnot
    have hremoves := routedBy_eq_nil false hnot
    simp only [methodNames, List.mem_append, List.mem_cons, List.not_mem_nil, or_false,
      not_or] at hnot
    obtain ⟨⟨⟨hfind, hadd, hmodify, hremove⟩, hflag⟩, -⟩ := hnot
    have henable : ¬(method = declaration.methods.enable ∧ declaration.enable.isSome) :=
      fun ⟨heq, hsome⟩ ↦ hflag (by simp [hsome, heq])
    have hdisable : ¬(method = declaration.methods.disable ∧ declaration.enable.isSome) :=
      fun ⟨heq, hsome⟩ ↦ hflag (by simp [hsome, heq])
    simp [ofMethod?, hadds, hremoves, hfind, hadd, hmodify, hremove, henable, hdisable] at h
  · intro h
    have hcases := mem_methodNames_cases h
    rw [ofMethod?]
    split_ifs with hfind henable hdisable hadds hremoves hadd hmodify hremove hnoAdds hnoRemoves
    all_goals try rfl
    -- No method name is left for the last branch.
    simp only [Bool.and_eq_true, decide_eq_true_eq] at henable hdisable
    simp only [Bool.not_eq_true', Bool.not_eq_false, List.isEmpty_iff] at hnoAdds hnoRemoves
    rcases hcases with h | h | h | h | ⟨h | h, hsome⟩ | ⟨adding, spec, hspec⟩
    · exact absurd h hfind
    · exact absurd h hadd
    · exact absurd h hmodify
    · exact absurd h hremove
    · exact absurd ⟨h, hsome⟩ henable
    · exact absurd ⟨h, hsome⟩ hdisable
    · cases adding
      · simp [hnoRemoves] at hspec
      · simp [hnoAdds] at hspec

end Operation

namespace Registry

/-- Of functions that are defined on disjoint parts, the one that is defined is found. -/
theorem findSome?_eq_of_pairwise {α β : Type} {f : α → Option β} {xs : List α} {x : α} {y : β}
    (hpair : xs.Pairwise fun a b ↦ ¬((f a).isSome ∧ (f b).isSome)) (hx : x ∈ xs)
    (hy : f x = some y) : xs.findSome? f = some y := by
  induction xs with
  | nil => simp at hx
  | cons head rest ih =>
    obtain ⟨hhead, hrest⟩ := List.pairwise_cons.1 hpair
    rcases List.mem_cons.1 hx with rfl | hx
    · rw [List.findSome?_cons, hy]
    · have hnone : f head = none := by
        by_contra hsome
        exact hhead x hx ⟨Option.isSome_iff_ne_none.2 hsome, by rw [hy, Option.isSome_some]⟩
      rw [List.findSome?_cons, hnone]
      exact ih hrest hx

theorem builtin_values : builtin.schemas.values =
    [.ca, .caacl, .dnsrecord, .dnszone, .group, .service, .user] := rfl

theorem mem_builtin_values {schema : ObjectSchema} :
    schema ∈ builtin.schemas.values ↔ schema ∈ ObjectSchema.builtins := by
  simp only [builtin_values, ObjectSchema.builtins, List.mem_cons, List.not_mem_nil, or_false]
  tauto

theorem methodNames_disjoint :
    (builtin.schemas.values.map fun schema ↦ Operation.methodNames schema.toDeclaration).Pairwise
      fun first second ↦ ∀ method ∈ first, method ∉ second := by
  decide +kernel

end Registry

namespace Directory

/-- A directory of the known types finds the type that a method belongs to. -/
theorem dispatch?_eq {directory : Directory} (hregistry : directory.registry = .builtin)
    {schema : ObjectSchema} (hschema : schema ∈ ObjectSchema.builtins) {method : String}
    (hmethod : method ∈ Operation.methodNames schema.toDeclaration) (arguments : Arguments) :
    directory.dispatch? method arguments =
      (Operation.ofMethod? schema.toDeclaration method arguments).map fun operation ↦
        (schema, operation) := by
  obtain ⟨operation, hoperation⟩ : ∃ operation,
      Operation.ofMethod? schema.toDeclaration method arguments = some operation :=
    Option.isSome_iff_exists.1 (Operation.ofMethod?_isSome_iff.2 hmethod)
  unfold dispatch?
  rw [hregistry, hoperation, Option.map_some]
  refine Registry.findSome?_eq_of_pairwise ?_ (Registry.mem_builtin_values.2 hschema)
    (by rw [hoperation, Option.map_some])
  refine (List.pairwise_map.1 Registry.methodNames_disjoint).imp fun {first second} hdisjoint h ↦ ?_
  simp only [Option.isSome_map, Operation.ofMethod?_isSome_iff] at h
  exact hdisjoint method h.1 h.2

end Directory

end DirectoryReconcile
