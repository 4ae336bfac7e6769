import DirectoryReconcile.Proofs.Ensure.Leading

/-!
# Identities in the arguments of calls

A call other than the search names its object by its leading arguments. The identity of a valid
request is read back from them as it is: a scalar loses its wrapper whatever the encoding puts around
it, and its canonical form is read as itself. Arguments that follow are not looked at.
-/

namespace DirectoryReconcile

/-- A dictionary is made again of its values for names that cover its keys. -/
theorem Dict.ofList_get? {α : Type} (dict : Dict α) {names : List String}
    (hcover : ∀ name value, dict.get? name = some value → name ∈ names) :
    Dict.ofList (names.filterMap fun name ↦ (dict.get? name).map fun value ↦ (name, value)) =
      dict := by
  have hmem (name : String) (value : α) : (name, value) ∈ (names.filterMap fun name ↦
      (dict.get? name).map fun value ↦ (name, value)) ↔ dict.get? name = some value := by
    simp only [List.mem_filterMap, Option.map_eq_some_iff, Prod.mk.injEq]
    constructor
    · rintro ⟨_, -, _, hget, rfl, rfl⟩
      exact hget
    · exact fun hget ↦ ⟨name, hcover name value hget, value, hget, rfl, rfl⟩
  refine Dict.ext fun name ↦ Option.ext fun value ↦ ?_
  rw [Dict.get?_ofList_eq_some_iff, hmem]
  intro first second hfirst hsecond
  exact Option.some.inj (((hmem name first).1 hfirst).symm.trans ((hmem name second).1 hsecond))

namespace AttributeSpec

open Declaration

variable {spec : AttributeSpec} {raw : Json} {value : AttrValue}

/-- A scalar has no fields of its own, so only the wrapper of its encoding is taken off. -/
theorem unwrapSingle_encode (encoding : Encoding) {value : Scalar} (hvalue : value ≠ .null) :
    unwrapSingle (encoding.encode value) = value.toJson := by
  unfold Encoding.encode
  cases encoding <;> cases value <;>
    simp_all [Scalar.isNull, Encoding.wrap, Encoding.wrapper?, Scalar.toJson, unwrapSingle]

/-- What a scalar attribute was read as is read again from the argument that it is written as. -/
theorem normalize_unwrapSingle_encode (hscalar : spec.isList = false)
    (hknown : ∀ normalizer ∈ spec.normalizer, normalizer ∈ ValueNormalizer.known)
    (h : spec.normalize raw = .ok value) (hvalue : value ≠ .scalar .null) :
    spec.normalize (unwrapSingle (spec.encode value)) = .ok value := by
  have hread := normalize_eq_ok_iff.1 h
  cases value with
  | list values => cases hscalar.symm.trans (isList_of_canonical hread)
  | scalar v =>
    have hne : v ≠ .null := fun hnull ↦ hvalue (congrArg _ hnull)
    have hbare : unwrapSingle (spec.encode (.scalar v)) = v.toJson := unwrapSingle_encode _ hne
    rw [hbare]
    exact normalize_eq_ok_iff.2 (canonical_of_canonical hknown hread)

end AttributeSpec

namespace Declaration

variable {declaration : Declaration} {desired : DesiredState} {identity : Identity}

/-- What an argument is read as for the attribute with this name, if it can be read. -/
def argument? (declaration : Declaration) (argument : String × Json) :
    Option (String × AttrValue) :=
  match declaration.normalize argument.1 (unwrapSingle argument.2) with
  | .ok value => some (argument.1, value)
  | .error _ => none

theorem identityOfCall_eq (call : RemoteCall) : declaration.identityOfCall call =
    .ofList ((declaration.identityKeys.zip call.positional).filterMap declaration.argument?) := rfl

/-- Arguments that are each read as the value of their attribute are read together as these values. -/
theorem filterMap_argument? {specs : List AttributeSpec}
    (h : ∀ spec ∈ specs, ∃ value, identity.get? spec.name = some value ∧
      declaration.normalize spec.name (unwrapSingle (spec.encode value)) = .ok value)
    (others : List Json) :
    ((specs.map (·.name)).zip ((encodedIdentity specs identity).map (·.2) ++ others)).filterMap
        declaration.argument? =
      (specs.map (·.name)).filterMap fun name ↦
        (identity.get? name).map fun value ↦ (name, value) := by
  induction specs with
  | nil => rfl
  | cons spec rest ih =>
    obtain ⟨⟨value, hget, hread⟩, hrest⟩ := List.forall_mem_cons.1 h
    have hhead : encodedIdentity (spec :: rest) identity =
        (spec.name, spec.encode value) :: encodedIdentity rest identity := by
      unfold encodedIdentity
      rw [List.filterMap_cons, hget]
      rfl
    have hargument : declaration.argument? (spec.name, spec.encode value) =
        some (spec.name, value) := by
      unfold argument?
      rw [hread]
    rw [hhead, List.map_cons, List.map_cons, List.cons_append, List.zip_cons_cons,
      List.filterMap_cons, List.filterMap_cons, hargument, hget, ih hrest]
    rfl

/-- The identity of a valid request has values for the attributes of the identity only. -/
theorem mem_identityKeys_of_get? (hvalidate : Ensure.validate declaration desired = .ok identity)
    {name : String} {value : AttrValue} (hget : identity.get? name = some value) :
    name ∈ declaration.identityKeys := by
  obtain ⟨⟨values, hvalues, rfl⟩, -, -⟩ := Ensure.parts_of_validate hvalidate
  obtain ⟨key, hkey, hvalue⟩ := (mem_of_mapM hvalues).1 (Dict.mem_of_get?_ofList hget)
  obtain ⟨rfl, -⟩ := Ensure.identityValue_eq_ok_iff.1 hvalue
  exact hkey

/-- The identity of a valid request is read back from every call that starts with it, whatever the
encodings of its attributes and whatever arguments follow. -/
theorem identityOfCall_reads_back (schema : ObjectSchema)
    (hscalar : ∀ spec ∈ schema.identityAttributes, spec.isList = false)
    (hknown : ∀ spec ∈ schema.identityAttributes, ∀ normalizer ∈ spec.normalizer,
      normalizer ∈ ValueNormalizer.known)
    (hvalidate : Ensure.validate schema.toDeclaration desired = .ok identity) {call : RemoteCall}
    {others : List Json} (hcall : call.positional = schema.positional identity ++ others) :
    schema.identityOfCall call = identity := by
  have hread : ∀ spec ∈ schema.identityAttributes, ∃ value, identity.get? spec.name = some value ∧
      schema.normalize spec.name (unwrapSingle (spec.encode value)) = .ok value := by
    intro spec hspec
    obtain ⟨value, hget, hne, raw, -, hvalue⟩ :=
      Ensure.get?_identity schema.names_nodup hvalidate hspec
    have hattribute : schema.attribute? spec.name = some spec :=
      (named?_eq_some_iff schema.names_nodup).2 ⟨(mem_identityAttributes.1 hspec).1, rfl⟩
    refine ⟨value, hget, ?_⟩
    unfold Declaration.normalize
    rw [hattribute]
    exact AttributeSpec.normalize_unwrapSingle_encode (hscalar spec hspec) (hknown spec hspec)
      hvalue hne
  rw [identityOfCall_eq, hcall, identityKeys, positional, filterMap_argument? hread]
  exact identity.ofList_get? fun name value ↦ mem_identityKeys_of_get? hvalidate

/-- The owner of a seat, told by a principal without its realm. -/
def seatOwner : AttributeSpec :=
  { AttributeSpec.identityKey "owner" with normalizer := some .stripRealm }

/-- The number of a seat, which is wrapped in requests and never unwrapped by a normalizer. -/
def seatNumber : AttributeSpec :=
  { AttributeSpec.identityKey "number" with kind := .int, encoding := .base64 }

/-- Numbered seats, with holders that are added by a positional argument. -/
def seat : ObjectSchema where
  toDeclaration := { Declaration.ofName "seat" with
    attributes := [
      seatOwner,
      seatNumber,
      (AttributeSpec.list "holder").routedPositional "seat_add_holder" "seat_remove_holder"] }
  accepted := by decide +kernel

/-- A request that spells its seat with a realm and with blanks. -/
def ashesSeat : DesiredState :=
  { DesiredState.ofState .present false with
    identity := .ofList [("number", .list [.str " 7 "]), ("owner", .scalar (.str "ashe@LAB"))]
    attributes := .ofList [("holder", .list [.str "bob"])] }

def ashesIdentity : Identity :=
  .ofList [("number", .scalar (.int 7)), ("owner", .scalar (.str "ashe"))]

def holderCall : RemoteCall :=
  .plain "seat_add_holder" [.str "ashe", .obj [("__base64__", .int 7)], .arr [.str "bob"]]

theorem identityOfCall_reads_back_seat :
    Ensure.validate seat.toDeclaration ashesSeat = .ok ashesIdentity ∧
      holderCall.positional = seat.positional ashesIdentity ++ [.arr [.str "bob"]] ∧
      seat.identityOfCall holderCall = ashesIdentity := by
  have hvalidate : Ensure.validate seat.toDeclaration ashesSeat = .ok ashesIdentity := by
    decide +kernel
  have hcall : holderCall.positional = seat.positional ashesIdentity ++ [.arr [.str "bob"]] := by
    decide +kernel
  have hattributes : seat.identityAttributes = [seatOwner, seatNumber] := rfl
  refine ⟨hvalidate, hcall, identityOfCall_reads_back seat (fun spec hspec ↦ ?_)
    (fun spec hspec normalizer hnormalizer ↦ ?_) hvalidate hcall⟩
  · rw [hattributes, List.mem_cons, List.mem_singleton] at hspec
    rcases hspec with rfl | rfl <;> rfl
  · rw [hattributes, List.mem_cons, List.mem_singleton] at hspec
    rcases hspec with rfl | rfl
    · cases Option.some.inj hnormalizer
      simp [ValueNormalizer.mem_known_iff]
    · cases hnormalizer

end Declaration

end DirectoryReconcile
