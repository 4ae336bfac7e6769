import DirectoryReconcile.Proofs.Differences
import DirectoryReconcile.Proofs.Naming

/-!
# Validation as a gate

A request that is refused ends its run before anything is posted. One that passes is complete: its
identity has a value for every attribute of the identity, and whatever is found and whatever action
follows, nothing is wrong with the request any more. Only the object that is found can still be one
that cannot be read.
-/

namespace DirectoryReconcile

namespace Ensure

open Declaration Difference

variable {declaration : Declaration} {desired : DesiredState} {identity : Identity}

/-- A run whose request is refused leaves nothing behind but the refusal. -/
theorem run_of_refused {σ : Type} {failure : Failure} (transport : Transport σ) (state : σ)
    (hvalidate : validate declaration desired = .error failure) :
    Exchange.run transport (run declaration desired) state = (⟨.error failure, [], []⟩, state) := by
  unfold run
  rw [hvalidate]
  rfl

/-- A valid request names its object by the attributes of the identity, all and no others. -/
theorem contains_identity_iff (hnodup : (declaration.attributes.map (·.name)).Nodup)
    (hvalidate : validate declaration desired = .ok identity) (key : String) :
    identity.contains key = true ↔ key ∈ declaration.identityKeys := by
  rw [Dict.contains, Option.isSome_iff_exists]
  constructor
  · rintro ⟨value, hvalue⟩
    exact mem_identityKeys_of_get? hvalidate hvalue
  · intro hkey
    obtain ⟨spec, hspec, rfl⟩ := List.mem_map.1 hkey
    obtain ⟨value, hvalue, -⟩ := get?_identity hnodup hvalidate hspec
    exact ⟨value, hvalue⟩

/-- A request that can be read is compared with every object that can be read. -/
theorem compute_eq_error_iff {object : RemoteObject} {action : Action} {wanted : Canonical}
    {failure : Failure} (hwanted : canonicalDesired declaration desired action = .ok wanted) :
    compute declaration object desired action = .error failure ↔
      canonicalCurrent declaration object action (forcedFlag declaration desired.state).isSome =
        .error failure := by
  cases hcurrent : canonicalCurrent declaration object action
      (forcedFlag declaration desired.state).isSome with
  | error other => simp [compute_of_unread hcurrent]
  | ok current => simp [compute, views, hcurrent, hwanted, bind, Except.bind, pure, Except.pure]

/-- A request that is refused ends its run with the refusal, before anything is posted. The identity
of one that passes has exactly the attributes of the identity, the request can be read for every
action, and comparing an object with it fails only as reading the object does. -/
theorem validate_gates (schema : ObjectSchema) (desired : DesiredState) :
    match validate schema.toDeclaration desired with
    | .error failure => ∀ {σ : Type} (transport : Transport σ) (state : σ),
        Exchange.run transport (run schema.toDeclaration desired) state =
          (⟨.error failure, [], []⟩, state)
    | .ok identity =>
      (∀ key, identity.contains key = true ↔ key ∈ schema.identityKeys) ∧
        ∀ action, (∃ wanted, canonicalDesired schema.toDeclaration desired action = .ok wanted) ∧
          ∀ object failure,
            compute schema.toDeclaration object desired action = .error failure ↔
              canonicalCurrent schema.toDeclaration object action
                (forcedFlag schema.toDeclaration desired.state).isSome = .error failure := by
  cases hvalidate : validate schema.toDeclaration desired with
  | error failure => exact fun transport state ↦ run_of_refused transport state hvalidate
  | ok identity =>
    refine ⟨contains_identity_iff schema.names_nodup hvalidate, fun action ↦ ?_⟩
    obtain ⟨wanted, hwanted⟩ := canonicalDesired_isOk hvalidate action
    exact ⟨⟨wanted, hwanted⟩, fun object failure ↦ compute_eq_error_iff hwanted⟩

end Ensure

end DirectoryReconcile
