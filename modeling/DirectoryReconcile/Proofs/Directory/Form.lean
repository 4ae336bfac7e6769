import DirectoryReconcile.Ensure
import DirectoryReconcile.Proofs.Directory.Refusal

/-!
# The form of a directory

Whatever is done to a directory, no two entries of a type share an identity, each entry has one text
for each identity attribute of its type, and each stored value is a list. The arguments of a call may
be of any form.
-/

namespace DirectoryReconcile

namespace Stored

/-- Attributes of which each value is a list. -/
def Listed (attrs : Dict Json) : Prop :=
  ∀ key value, attrs.get? key = some value → ∃ items, value = .arr items

variable {attrs : Dict Json}

theorem Listed.insert (h : Listed attrs) (key : String) (items : List Json) :
    Listed (attrs.insert key (.arr items)) := by
  intro other value hget
  rw [Dict.get?_insert] at hget
  split at hget
  · exact ⟨items, (Option.some.inj hget).symm⟩
  · exact h other value hget

theorem Listed.erase (h : Listed attrs) (key : String) : Listed (attrs.erase key) := by
  intro other value hget
  rw [Dict.get?_erase] at hget
  split at hget
  · simp at hget
  · exact h other value hget

theorem Listed.pushValues (h : Listed attrs) (key : String) (values : Json) :
    Listed (pushValues attrs key values) :=
  h.insert key _

theorem Listed.dropValues (h : Listed attrs) (key : String) (values : Json) :
    Listed (dropValues attrs key values) := by
  unfold Stored.dropValues
  split
  · split
    · exact h.erase key
    · exact h.insert key _
  · exact h

end Stored

namespace Operation

open Stored

variable {declaration : Declaration} {attrs after : Dict Json}

theorem listed_applyAssignment {option : String} {value : Json} (hlisted : Listed attrs)
    (h : applyAssignment option attrs value = .ok after) : Listed after := by
  unfold applyAssignment at h
  cases hsplit : Text.splitFirst '=' (text value) with
  | none => simp [hsplit] at h
  | some assignment =>
    obtain ⟨key, written⟩ := assignment
    simp only [hsplit] at h
    split at h
    · cases h
      exact hlisted.pushValues key _
    · split at h
      · split at h
        · simp at h
        · cases h
          exact hlisted.dropValues key _
      · cases h
        exact hlisted.insert key _

theorem listed_applyOption {option : String × Json} (hlisted : Listed attrs)
    (h : applyOption declaration attrs option = .ok after) : Listed after := by
  unfold applyOption at h
  simp only at h
  split at h
  · cases h
    exact hlisted
  split at h
  · exact foldlM_keeps (R := fun before after ↦ Listed before → Listed after) (fun _ ↦ id)
      (fun first second ↦ second ∘ first)
      (fun _ _ _ _ happlied hbefore ↦ listed_applyAssignment hbefore happlied) h hlisted
  split at h
  · simp at h
  next spec _ =>
    split at h
    · cases h
      exact hlisted.erase _
    · cases h
      exact hlisted.insert _ _

theorem listed_applyOptions {item : Dict Json} (hlisted : Listed attrs)
    (h : applyOptions declaration attrs item = .ok after) : Listed after :=
  foldlM_keeps (R := fun before after ↦ Listed before → Listed after) (fun _ ↦ id)
    (fun first second ↦ second ∘ first)
    (fun _ _ _ _ happlied hbefore ↦ listed_applyOption hbefore happlied) h hlisted

theorem listed_changeLists {change : Dict Json → String → Json → Dict Json}
    (hchange : ∀ attrs key values, Listed attrs → Listed (change attrs key values))
    (arguments : Arguments) (length : Nat) (specs : List AttributeSpec) (hlisted : Listed attrs) :
    Listed (changeLists change arguments length specs attrs).1 := by
  unfold changeLists
  generalize 0 = completed
  induction specs generalizing attrs completed with
  | nil => exact hlisted
  | cons head rest ih =>
    rw [List.foldl_cons]
    cases routedValues? arguments length head with
    | none => exact ih hlisted completed
    | some values => exact ih (hchange attrs head.responseKey values hlisted) _

end Operation

namespace Entry

open Stored

/-- An entry with one text for each identity attribute and a list for each response key. -/
structure Formed (declaration : Declaration) (entry : Entry) : Prop where
  length_eq : entry.identity.length = declaration.identityAttributes.length
  listed : Listed entry.attrs

theorem Formed.withAttrs {declaration : Declaration} {entry : Entry} {attrs : Dict Json}
    (h : entry.Formed declaration) (hlisted : Listed attrs) :
    Formed declaration { entry with attrs := attrs } :=
  ⟨h.length_eq, hlisted⟩

theorem formed_named {declaration : Declaration} {identity : List String}
    (hlength : identity.length = declaration.identityAttributes.length) :
    (named declaration identity).Formed declaration where
  length_eq := hlength
  listed key value hget := by
    obtain ⟨⟨spec, text⟩, -, heq⟩ := List.mem_map.1 (Dict.mem_of_get?_ofList hget)
    exact ⟨[.str text], (Prod.mk.inj heq).2.symm⟩

end Entry

namespace Operation

open Stored Entry

variable {declaration : Declaration} {arguments : Arguments} {identity : List String}
  {entries : List Entry} {operation : Operation}

/-- The entry that an operation leaves is in form if the one it was carried out on was. -/
theorem Leaves.formed (hlength : identity.length = declaration.identityAttributes.length)
    {held held' : Option Entry} (hnamed : NamedBy identity held)
    (hheld : ∀ entry ∈ held, entry.Formed declaration) {result : Json}
    (h : Leaves declaration identity arguments operation held result held') :
    NamedBy identity held' ∧ ∀ entry ∈ held', entry.Formed declaration := by
  refine h.keeps hnamed hheld (formed_named hlength) ?apply ?flag ?push ?drop
  case apply =>
    exact fun _ entry attrs hformed happlied ↦
      hformed.withAttrs (listed_applyOptions hformed.listed happlied)
  case flag =>
    exact fun flag _ enabled entry hformed ↦
      hformed.withAttrs (hformed.listed.insert (flagKey declaration flag) _)
  case push =>
    exact fun specs _ entry hformed ↦ hformed.withAttrs (listed_changeLists
      (fun _ key values h ↦ h.pushValues key values) arguments _ specs hformed.listed)
  case drop =>
    exact fun specs _ entry hformed ↦ hformed.withAttrs (listed_changeLists
      (fun _ key values h ↦ h.dropValues key values) arguments _ specs hformed.listed)

/-- An operation that is carried out keeps the entries of a type in form. -/
theorem perform_formed (hdistinct : Distinct entries)
    (hformed : ∀ entry ∈ entries, entry.Formed declaration) {result : Json} {after : List Entry}
    (h : operation.perform declaration entries arguments = .ok (result, after)) :
    Distinct after ∧ ∀ entry ∈ after, entry.Formed declaration := by
  by_cases hfind : operation = .find
  · rw [hfind, perform_find] at h
    obtain ⟨-, rfl⟩ := Prod.mk.inj (Except.ok.inj h)
    exact ⟨hdistinct, hformed⟩
  cases hid : identityOf declaration arguments.positional with
  | error refusal =>
    have hrefused : operation.perform declaration entries arguments = .error refusal :=
      perform_eq operation (execute_of_unnamed hfind hid)
    simp [hrefused] at h
  | ok identity =>
    rw [perform_focus hfind hid] at h
    obtain ⟨⟨result', left⟩, hperform, hdone⟩ := map_eq_ok.1 h
    obtain ⟨-, rfl⟩ := Prod.mk.inj hdone
    have hnamed : NamedBy identity (focus identity entries) := namedBy_focus identity entries
    have hheld : ∀ entry ∈ focus identity entries, entry.Formed declaration := fun entry hentry ↦
      hformed entry (List.mem_of_find?_eq_some hentry)
    obtain ⟨hnamed', hheld'⟩ :=
      (leaves_of_perform hfind hid hnamed hperform).formed (length_of_identityOf hid) hnamed hheld
    refine ⟨distinct_put hdistinct hnamed', fun entry hentry ↦ ?_⟩
    rcases mem_put hentry with hself | hentry
    · exact hheld' entry hself
    · exact hformed entry hentry

end Operation

namespace Directory

open Operation Entry Stored

variable {registry : Registry} {directory after : Directory}

/-- A directory that keeps entries of types in its registry only, all of them in form. -/
structure Formed (registry : Registry) (directory : Directory) : Prop where
  registry_eq : directory.registry = registry
  known : ∀ type entries, directory.objects.get? type = some entries →
    ∃ schema, registry.schemas.get? type = some schema
  distinct : ∀ type, Distinct (directory.entriesOf type)
  formed : ∀ type schema, registry.schemas.get? type = some schema →
    ∀ entry ∈ directory.entriesOf type, entry.Formed schema.toDeclaration

theorem formed_ofRegistry (registry : Registry) : (ofRegistry registry).Formed registry where
  registry_eq := rfl
  known _ _ hentries := by simp [ofRegistry] at hentries
  distinct _ := .nil
  formed _ _ _ entry hentry := absurd hentry List.not_mem_nil

theorem Formed.withEntries (h : directory.Formed registry) {type : String} {schema : ObjectSchema}
    {entries : List Entry} (hschema : registry.schemas.get? type = some schema)
    (hdistinct : Distinct entries) (hentries : ∀ entry ∈ entries, entry.Formed schema.toDeclaration) :
    (directory.withEntries type entries).Formed registry where
  registry_eq := h.registry_eq
  known other entries' hget := by
    rw [Directory.withEntries, Dict.get?_insert] at hget
    split at hget
    next heq => exact ⟨schema, heq ▸ hschema⟩
    next => exact h.known other entries' hget
  distinct other := by
    rw [entriesOf_withEntries]
    split
    · exact hdistinct
    · exact h.distinct other
  formed other schema' hschema' entry hentry := by
    rw [entriesOf_withEntries] at hentry
    split at hentry
    next heq =>
      obtain rfl : schema = schema' := by
        rw [← heq, hschema] at hschema'
        exact Option.some.inj hschema'
      exact hentries entry hentry
    next => exact h.formed other schema' hschema' entry hentry

/-- The type that a method belongs to is in the registry. -/
theorem get?_of_dispatch? {method : String} {arguments : Arguments} {schema : ObjectSchema}
    {operation : Operation} (h : directory.dispatch? method arguments = some (schema, operation)) :
    directory.registry.schemas.get? schema.name = some schema := by
  obtain ⟨found, hmem, hfound⟩ := List.exists_of_findSome?_eq_some h
  obtain ⟨_, -, heq⟩ := Option.map_eq_some_iff.1 hfound
  obtain ⟨rfl, -⟩ := Prod.mk.inj heq
  obtain ⟨name, hget⟩ := (Dict.mem_values_iff _).1 hmem
  rwa [directory.registry.named name found hget]

/-! ## Steps -/

theorem Formed.post (h : directory.Formed registry) (method : String) (params : Json) :
    (directory.post method params).2.Formed registry := by
  have hreceived : (directory.receive method params).Formed registry :=
    ⟨h.registry_eq, h.known, h.distinct, h.formed⟩
  have hposted := posted directory method params
  generalize directory.post method params = answer at hposted ⊢
  obtain ⟨reply, after⟩ := answer
  cases hposted with
  | lost | rejected => exact hreceived
  | @refused schema operation refusal hdispatch =>
    have hschema := h.registry_eq ▸ get?_of_dispatch? hdispatch
    exact hreceived.withEntries hschema (h.distinct _) (h.formed _ _ hschema)
  | @carriedOut schema operation result entries hdispatch hperform =>
    have hschema := h.registry_eq ▸ get?_of_dispatch? hdispatch
    obtain ⟨hdistinct, hformed⟩ :=
      perform_formed (h.distinct schema.name) (h.formed _ _ hschema) hperform
    exact hreceived.withEntries hschema hdistinct hformed

theorem listed_seedField {declaration : Declaration} {attrs : Dict Json} (h : Listed attrs)
    (fields : List (String × Json)) : Listed (fields.foldl (seedField declaration) attrs) := by
  induction fields generalizing attrs with
  | nil => exact h
  | cons field rest ih => exact ih (h.insert _ _)

theorem formed_seedEntry {declaration : Declaration} {fields : Dict Json} {entry : Entry}
    (h : seedEntry declaration fields = .ok entry) : entry.Formed declaration := by
  obtain ⟨identity, hidentity, hentry⟩ := bind_eq_ok.1 h
  cases hentry
  have hlength : identity.length = declaration.identityAttributes.length :=
    (mapM_eq_ok.1 hidentity).length_eq.symm
  exact ⟨hlength, listed_seedField (formed_named hlength).listed _⟩

theorem Formed.seed (h : directory.Formed registry) {type : String} {object : Json}
    (hseed : directory.seed type object = .ok after) : after.Formed registry := by
  obtain ⟨schema, hschema, hseed⟩ := bind_eq_ok.1 hseed
  have hget : registry.schemas.get? type = some schema := by
    rw [h.registry_eq, Registry.get] at hschema
    split at hschema
    next hget => rw [hget, Except.ok.inj hschema]
    next => simp at hschema
  cases object with
  | null | bool | int | float | str | arr => simp [throw, throwThe, MonadExceptOf.throw] at hseed
  | obj fields =>
    obtain ⟨entry, hentry, hafter⟩ := bind_eq_ok.1 hseed
    cases hafter
    refine h.withEntries hget ?_ fun other hother ↦ ?_
    · refine List.pairwise_append.2 ⟨(h.distinct type).filter _, List.pairwise_singleton _ _, ?_⟩
      intro other hother last hlast
      obtain rfl := List.mem_singleton.1 hlast
      simpa [isNamed] using (List.mem_filter.1 hother).2
    · rcases List.mem_append.1 hother with hother | hother
      · exact h.formed type schema hget other (List.mem_filter.1 hother).1
      · rw [List.mem_singleton.1 hother]
        exact formed_seedEntry hentry

/-- A whole run keeps a directory in form, since each of its calls does. -/
theorem Formed.run {α : Type} (exchange : Exchange α) (h : directory.Formed registry) :
    (Exchange.run transport exchange directory).2.Formed registry := by
  induction exchange generalizing directory with
  | done | fail => exact h
  | note event next ih => exact ih h
  | post call next ih => exact ih _ (h.post call.method call.params)

/-! ## Reachable directories -/

/-- The directories that seeds, calls of any form, runs of requests and failures lead to. -/
inductive Reachable (registry : Registry) : Directory → Prop
  | empty : Reachable registry (ofRegistry registry)
  | seed {directory after : Directory} {type : String} {object : Json}
      (h : Reachable registry directory) (hseed : directory.seed type object = .ok after) :
    Reachable registry after
  | post {directory : Directory} (method : String) (params : Json)
      (h : Reachable registry directory) : Reachable registry (directory.post method params).2
  | ensure {directory : Directory} (schema : ObjectSchema) (desired : DesiredState)
      (h : Reachable registry directory) :
    Reachable registry
      (Exchange.run transport (Ensure.run schema.toDeclaration desired) directory).2
  | inject {directory : Directory} (method : String) (fault : InjectedFault)
      (h : Reachable registry directory) : Reachable registry (directory.inject method fault)
  | clearFaults {directory : Directory} (h : Reachable registry directory) :
    Reachable registry directory.clearFaults
  | clearReceived {directory : Directory} (h : Reachable registry directory) :
    Reachable registry directory.clearReceived

theorem Reachable.formed (h : Reachable registry directory) : directory.Formed registry := by
  induction h with
  | empty => exact formed_ofRegistry registry
  | seed _ hseed ih => exact ih.seed hseed
  | post method params _ ih => exact ih.post method params
  | ensure schema desired _ ih => exact ih.run _
  | inject _ _ _ ih => exact ⟨ih.registry_eq, ih.known, ih.distinct, ih.formed⟩
  | clearFaults _ ih => exact ⟨ih.registry_eq, ih.known, ih.distinct, ih.formed⟩
  | clearReceived _ ih => exact ⟨ih.registry_eq, ih.known, ih.distinct, ih.formed⟩

/-- The entries of a type are told apart by their identities, each has one text for each identity
attribute of the type, and each of its stored values is a list. -/
theorem reachable_entries (h : Reachable registry directory) {type : String} {entries : List Entry}
    (hentries : directory.objects.get? type = some entries) :
    ∃ schema, registry.get type = .ok schema ∧ Distinct entries ∧
      ∀ entry ∈ entries, entry.Formed schema.toDeclaration := by
  have hformed := h.formed
  have hown : directory.entriesOf type = entries := by
    rw [entriesOf, hentries, Option.getD_some]
  obtain ⟨schema, hschema⟩ := hformed.known type entries hentries
  refine ⟨schema, ?_, hown ▸ hformed.distinct type, hown ▸ hformed.formed type schema hschema⟩
  rw [Registry.get, hschema]

/-- The parameters of a call that gives a new record one address, which is no list. -/
def oneAddress : Json := .arr [.arr [.str "example.test.", .str "www"],
  .ofFields [("arecord", .str "192.0.2.10")]]

/-- The record that the call creates. -/
def addressed : Entry := ⟨["example.test.", "www"], .ofList [("arecord", .arr [.str "192.0.2.10"]),
  ("dnszoneidnsname", .arr [.str "example.test."]), ("idnsname", .arr [.str "www"])]⟩

theorem reachable_entries_addressed :
    ∃ schema, Registry.builtin.get "dnsrecord" = .ok schema ∧ Distinct [addressed] ∧
      ∀ entry ∈ [addressed], entry.Formed schema.toDeclaration :=
  reachable_entries (.post "dnsrecord_add" oneAddress .empty) (by decide +kernel)

end Directory

end DirectoryReconcile
