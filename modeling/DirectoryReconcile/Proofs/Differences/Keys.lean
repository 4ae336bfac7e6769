import DirectoryReconcile.Proofs.Differences

/-!
# Attributes and their keys

A comparison goes from the keys of an object to its attributes, and a key belongs to the first
attribute that has it. The check of what cannot be written and the flag go the other way, from an
attribute to its key. Both read the same value of an attribute exactly where it is the first with
its key; an accepted declaration may have several attributes with one key, and nothing is compared
of those that come later.
-/

namespace DirectoryReconcile

namespace Difference

open Declaration Ensure

variable {declaration : Declaration} {object : RemoteObject} {action : Action} {withFlag : Bool}
  {view : Canonical} {spec : AttributeSpec} {raw : Json} {value : AttrValue}

/-- Whether an object with this value for its flag counts as enabled. -/
def countsAsEnabled (flag : EnableSpec) : AttrValue → Bool
  | .scalar (.bool stored) => stored != flag.inverted
  | _ => true

/-- An object is taken to have this value for an attribute, apart from comparisons: where the
attribute cannot be written, a requested value has to be the same, and the flag is judged by it. -/
structure TakenAs (declaration : Declaration) (object : RemoteObject) (spec : AttributeSpec)
    (value : AttrValue) : Prop where
  checked : ∀ action requested, spec.appliesTo action = false →
    declaration.isEnableAttribute spec.name = false →
      (checkWritable declaration object action spec.name requested = .ok () ↔
        ∃ wanted, spec.normalize requested.toJson = .ok wanted ∧ sameValue wanted value = true)
  judged : ∀ flag, declaration.enable = some flag → flag.attr = spec.name →
    declaration.isEnabled object = .ok (countsAsEnabled flag value)

/-- What is read at the key of an attribute is taken for its value. -/
theorem takenAs_of_key (hspec : declaration.attribute? spec.name = some spec)
    (hunnamed : spec.identity = false) (hraw : object.get? spec.responseKey = some raw)
    (hread : spec.normalize raw = .ok value) : TakenAs declaration object spec value where
  checked action requested hfixed hflag := by
    unfold checkWritable
    simp only [hspec, hunnamed, hfixed, hflag, Bool.or_self, Bool.false_eq_true, if_false, hraw]
    rw [bind_eq_ok]
    refine exists_congr fun wanted ↦ and_congr_right fun _ ↦ ?_
    simp only [hread, bind, Except.bind]
    split <;> simp_all
  judged flag henable hname := by
    unfold isEnabled countsAsEnabled
    simp only [henable, hname, hspec, hraw, hread]
    split <;> simp_all

/-- A comparison reads the value at the key of its first attribute. -/
theorem get?_canonicalCurrent_of_first (hnodup : (declaration.attributes.map (·.name)).Nodup)
    (hview : canonicalCurrent declaration object action withFlag = .ok view)
    (hcompared : Compared declaration action withFlag spec)
    (hfirst : declaration.attributeOfResponseKey? spec.responseKey = some spec)
    (hraw : object.get? spec.responseKey = some raw) :
    ∃ value, spec.normalize raw = .ok value ∧ view.get? spec.name = some value := by
  have hmem : (spec, raw) ∈ considered declaration object action withFlag :=
    mem_considered.2 ⟨hfirst, considers_iff.2 hcompared, hraw⟩
  rcases canonicalCurrent_cases declaration object action withFlag with ⟨-, -, hall⟩ | ⟨failure, hfails, -⟩
  · obtain ⟨value, hread⟩ := hall _ hmem
    exact ⟨value, hread, (get?_canonicalCurrent_iff hnodup hview).2
      ⟨spec, raw, hfirst, rfl, hcompared, hraw, hread⟩⟩
  · cases hfails.symm.trans hview

/-- A comparison reads nothing for an attribute whose key belongs to another one. -/
theorem get?_canonicalCurrent_of_not_first (schema : ObjectSchema)
    (hview : canonicalCurrent schema.toDeclaration object action withFlag = .ok view)
    (hspec : schema.attribute? spec.name = some spec)
    (hlater : schema.attributeOfResponseKey? spec.responseKey ≠ some spec) :
    view.get? spec.name = none := by
  refine Option.eq_none_iff_forall_ne_some.2 fun value hvalue ↦ ?_
  obtain ⟨other, hother, hfirst, -⟩ :=
    ((get?_canonicalCurrent_iff schema.names_nodup hview).1 hvalue).exists_attribute
  cases hspec.symm.trans hother
  exact hlater hfirst

/-- The two ways to read an attribute of an object agree exactly where the attribute is the first
with its key: a comparison has the value at that key, in canonical form, and so have the check of
what cannot be written and the flag. Of an attribute whose key belongs to an earlier one a
comparison has nothing. -/
theorem readings_agree_iff (schema : ObjectSchema)
    (hview : canonicalCurrent schema.toDeclaration object action withFlag = .ok view)
    (hspec : spec ∈ schema.attributes)
    (hcompared : Compared schema.toDeclaration action withFlag spec)
    (hraw : object.get? spec.responseKey = some raw) :
    ((∃ value, view.get? spec.name = some value ∧ spec.normalize raw = .ok value ∧
        TakenAs schema.toDeclaration object spec value) ↔
      schema.attributeOfResponseKey? spec.responseKey = some spec) ∧
    (view.get? spec.name = none ↔
      schema.attributeOfResponseKey? spec.responseKey ≠ some spec) := by
  have hattribute : schema.attribute? spec.name = some spec :=
    (named?_eq_some_iff schema.names_nodup).2 ⟨hspec, rfl⟩
  by_cases hfirst : schema.attributeOfResponseKey? spec.responseKey = some spec
  · obtain ⟨value, hread, hvalue⟩ :=
      get?_canonicalCurrent_of_first schema.names_nodup hview hcompared hfirst hraw
    have htaken := takenAs_of_key hattribute hcompared.unnamed hraw hread
    exact ⟨iff_of_true ⟨value, hvalue, hread, htaken⟩ hfirst,
      iff_of_false (by simp [hvalue]) (not_not_intro hfirst)⟩
  · have hnone := get?_canonicalCurrent_of_not_first schema hview hattribute hfirst
    exact ⟨iff_of_false (by simp [hnone]) hfirst, iff_of_true hnone hfirst⟩

/-- The one who has a device, whom the service calls its manager. -/
def owner : AttributeSpec := { AttributeSpec.scalar "owner" with remoteName := some "manager" }

def manager : AttributeSpec := AttributeSpec.scalar "manager"

/-- Two attributes with one key. -/
def device : ObjectSchema where
  toDeclaration := { Declaration.ofName "device" with
    attributes := [AttributeSpec.identityKey "cn", owner, manager] }
  accepted := by decide +kernel

def printer : RemoteObject := .ofList [("cn", .arr [.str "printer"]), ("manager", .arr [.str "bob"])]

def printerView : Canonical := .ofList [("owner", .scalar (.str "bob"))]

theorem readings_agree_iff_sharedKey :
    canonicalCurrent device.toDeclaration printer .modify false = .ok printerView ∧
      (∃ value, printerView.get? "owner" = some value ∧
        owner.normalize (.arr [.str "bob"]) = .ok value ∧
          TakenAs device.toDeclaration printer owner value) ∧
        printerView.get? "manager" = none :=
  have hview : canonicalCurrent device.toDeclaration printer .modify false = .ok printerView := by
    decide +kernel
  have hraw : printer.get? "manager" = some (.arr [.str "bob"]) := by decide +kernel
  have howner := readings_agree_iff device hview (by simp [device] : owner ∈ device.attributes)
    ⟨by decide, rfl, by decide⟩ hraw
  have hmanager := readings_agree_iff device hview (by simp [device] : manager ∈ device.attributes)
    ⟨by decide, rfl, by decide⟩ hraw
  ⟨hview, howner.1.2 rfl, hmanager.2.2 fun h ↦
    absurd (congrArg AttributeSpec.name (Option.some.inj h)) (by decide)⟩

end Difference

end DirectoryReconcile
