import DirectoryReconcile.Proofs.Directory.Form
import DirectoryReconcile.Proofs.Interleaving
import DirectoryReconcile.Proofs.Scheduling

/-!
# Entries that a run leaves alone

A run changes at most the entries that its request names. All other entries stay as they are and
keep their order, whatever the state of the directory and however the run ends; a dry run changes
no entry.
-/

namespace DirectoryReconcile

namespace Entry

variable {identity : List String} {entries : List Entry}

theorem filter_discard (identity : List String) (entries : List Entry) :
    (Operation.discard identity entries).filter (fun entry ↦ !entry.isNamed identity) =
      entries.filter fun entry ↦ !entry.isNamed identity := by
  induction entries with
  | nil => rfl
  | cons head rest ih =>
    unfold Operation.discard
    split
    next hnamed => rw [List.filter_cons_of_neg (by simp [hnamed])]
    next hnamed =>
      rw [List.filter_cons_of_pos (by simp [hnamed]), List.filter_cons_of_pos (by simp [hnamed]),
        ih]

theorem filter_replace {entry : Entry} (hnamed : entry.isNamed identity) (entries : List Entry) :
    (Operation.replace entry entries).filter (fun entry ↦ !entry.isNamed identity) =
      entries.filter fun entry ↦ !entry.isNamed identity := by
  induction entries with
  | nil => rfl
  | cons head rest ih =>
    have hiff : head.isNamed entry.identity = head.isNamed identity := isNamed_congr head hnamed
    unfold Operation.replace
    rw [hiff]
    split
    next hhead =>
      rw [List.filter_cons_of_neg (by simp [hnamed]), List.filter_cons_of_neg (by simp [hhead])]
    next hhead =>
      rw [List.filter_cons_of_pos (by simp [hhead]), List.filter_cons_of_pos (by simp [hhead]), ih]

/-- The entries with other identities stay as they are and where they are. -/
theorem filter_put {held : Option Entry} (hnamed : NamedBy identity held) (entries : List Entry) :
    (put identity held entries).filter (fun entry ↦ !entry.isNamed identity) =
      entries.filter fun entry ↦ !entry.isNamed identity := by
  cases held with
  | none => exact filter_discard identity entries
  | some entry =>
    have hentry : entry.isNamed identity := hnamed entry rfl
    rw [put]
    split
    · exact filter_replace hentry entries
    · rw [List.filter_append, List.filter_cons_of_neg (by simp [hentry]), List.filter_nil,
        List.append_nil]

end Entry

namespace Operation

open Entry

/-- An operation changes at most the entry with the identity of its call. -/
theorem filter_perform {declaration : Declaration} {entries after : List Entry}
    {arguments : Arguments} {identity : List String} {operation : Operation} {result : Json}
    (hfind : operation ≠ .find) (hid : identityOf declaration arguments.positional = .ok identity)
    (h : operation.perform declaration entries arguments = .ok (result, after)) :
    after.filter (fun entry ↦ !entry.isNamed identity) =
      entries.filter fun entry ↦ !entry.isNamed identity := by
  have hheld := namedBy_focus identity entries
  rw [perform_focus hfind hid] at h
  obtain ⟨⟨report, left⟩, hdone, hback⟩ := map_eq_ok.1 h
  have hleaves := leaves_of_perform hfind hid hheld hdone
  obtain ⟨hleft, -⟩ : NamedBy identity left.head? ∧ ∀ entry ∈ left.head?, True :=
    hleaves.keeps hheld (fun _ _ ↦ trivial) trivial (fun _ _ _ _ _ ↦ trivial)
      (fun _ _ _ _ _ ↦ trivial) (fun _ _ _ _ ↦ trivial) fun _ _ _ _ ↦ trivial
  obtain ⟨-, rfl⟩ := Prod.mk.inj hback
  exact filter_put hleft entries

end Operation

namespace Directory

open Exchange Operation Ensure

variable {directory : Directory} {schema : ObjectSchema} {texts : List String}
  {desired : DesiredState}

/-- Two directories that hold the same but for some entries of one type: those of other types and
the ones spared are the same, in the same order. -/
structure Spares (type : String) (spared : Entry → Bool) (before after : Directory) : Prop where
  registry : after.registry = before.registry
  others : ∀ other, other ≠ type → after.entriesOf other = before.entriesOf other
  own : (after.entriesOf type).filter spared = (before.entriesOf type).filter spared

theorem Spares.refl (type : String) (spared : Entry → Bool) (directory : Directory) :
    Spares type spared directory directory :=
  ⟨rfl, fun _ _ ↦ rfl, rfl⟩

theorem Spares.trans {type : String} {spared : Entry → Bool} {middle after : Directory}
    (h : Spares type spared directory middle) (h' : Spares type spared middle after) :
    Spares type spared directory after where
  registry := h'.registry.trans h.registry
  others other hne := (h'.others other hne).trans (h.others other hne)
  own := h'.own.trans h.own

/-- Where every entry is spared, nothing changes. -/
theorem Spares.entriesOf_eq {type : String} {after : Directory}
    (h : Spares type (fun _ ↦ true) directory after) (other : String) :
    after.entriesOf other = directory.entriesOf other := by
  by_cases heq : other = type
  · subst heq
    simpa only [List.filter_true] using h.own
  · exact h.others other heq

theorem spares_withEntries (directory : Directory) (method : String) (params : Json)
    {type : String} {spared : Entry → Bool} {entries : List Entry}
    (hentries : entries.filter spared = (directory.entriesOf type).filter spared) :
    Spares type spared directory ((directory.receive method params).withEntries type entries) where
  registry := rfl
  others other hne := by
    rw [entriesOf_withEntries, if_neg hne.symm]
    rfl
  own := by rw [entriesOf_withEntries, if_pos rfl, hentries]

/-- A call spares what its operation spares. -/
theorem spares_post (hregistry : directory.registry = .builtin)
    (hschema : schema ∈ ObjectSchema.builtins) {call : RemoteCall} {operation : Operation}
    (hoperation : ofMethod? schema.toDeclaration call.method call.arguments = some operation)
    {spared : Entry → Bool}
    (hspared : ∀ result entries, operation.perform schema.toDeclaration
      (directory.entriesOf schema.name) call.arguments = .ok (result, entries) →
        entries.filter spared = (directory.entriesOf schema.name).filter spared) :
    Spares schema.name spared directory (directory.post call.method call.params).2 := by
  have hreceived : Spares schema.name spared directory
      (directory.receive call.method call.params) := ⟨rfl, fun _ _ ↦ rfl, rfl⟩
  rw [post_eq hregistry hschema hoperation]
  cases directory.faults.get? call.method with
  | some fault => cases fault <;> exact hreceived
  | none =>
    cases hperform : operation.perform schema.toDeclaration (directory.entriesOf schema.name)
        call.arguments with
    | error refusal => exact spares_withEntries directory _ _ rfl
    | ok done => exact spares_withEntries directory _ _ (hspared done.1 done.2 hperform)

/-- A search spares every entry. -/
theorem spares_post_findCall (hregistry : directory.registry = .builtin)
    (hschema : schema ∈ ObjectSchema.builtins) (identity : Identity) (spared : Entry → Bool) :
    let call := schema.toDeclaration.findCall identity
    Spares schema.name spared directory (directory.post call.method call.params).2 := by
  refine spares_post hregistry hschema (ofMethod?_find _) fun result entries hperform ↦ ?_
  rw [perform_find] at hperform
  rw [← (Prod.mk.inj (Except.ok.inj hperform)).2]

theorem spares_post_confined {α : Type} {allowance : Allowance}
    (hregistry : directory.registry = .builtin) (hschema : schema ∈ ObjectSchema.builtins)
    {call : RemoteCall} {next : Reply → Exchange α}
    (h : (Exchange.post call next).Confined allowance schema texts) :
    Spares schema.name (fun entry ↦ !entry.isNamed texts) directory
      (directory.post call.method call.params).2 := by
  obtain ⟨-, ⟨operation, hoperation, hfind, hid, -⟩ | ⟨identity, -, rfl, -⟩⟩ := h
  · exact spares_post hregistry hschema hoperation fun result entries hperform ↦
      filter_perform hfind hid hperform
  · exact spares_post_findCall hregistry hschema identity _

/-- A confined exchange spares every entry but that of its object. -/
theorem spares_run {α : Type} {allowance : Allowance} {exchange : Exchange α}
    (hregistry : directory.registry = .builtin) (hschema : schema ∈ ObjectSchema.builtins)
    (h : exchange.Confined allowance schema texts) :
    Spares schema.name (fun entry ↦ !entry.isNamed texts) directory
      (run transport exchange directory).2 := by
  induction exchange generalizing directory with
  | done | fail => exact .refl _ _ directory
  | note event next ih => exact ih hregistry h
  | post call next ih =>
    have hposted := spares_post_confined hregistry hschema h
    exact hposted.trans (ih _ (hposted.registry.trans hregistry) (h.1 _))

theorem spares_dryRun (hregistry : directory.registry = .builtin)
    (hschema : schema ∈ ObjectSchema.builtins) (hdry : desired.dryRun = true) :
    Spares schema.name (fun _ ↦ true) directory
      (run transport (Ensure.run schema.toDeclaration desired) directory).2 := by
  cases hvalidate : validate schema.toDeclaration desired with
  | error failure =>
    have hrun : Ensure.run schema.toDeclaration desired = .fail failure := by
      rw [Ensure.run, hvalidate]
      rfl
    rw [hrun]
    exact .refl _ _ directory
  | ok identity =>
    rw [run_state, posted_of_dryRun transport schema.toDeclaration desired hdry hvalidate]
    exact spares_post_findCall hregistry hschema identity _

/-- Whatever the directory went through before, and whether or not the run succeeds, the entries of
other types and those with identities other than the one requested are as they were and in the same
order. A dry run changes no entry. -/
theorem ensure_spares_others (reachable : Reachable .builtin directory)
    (hschema : schema ∈ ObjectSchema.builtins) (desired : DesiredState) :
    let after := (run transport (Ensure.run schema.toDeclaration desired) directory).2
    let isOther := fun entry : Entry ↦
      !(target? schema.toDeclaration desired).any entry.isNamed
    (∀ type, type ≠ schema.name → after.entriesOf type = directory.entriesOf type) ∧
      (after.entriesOf schema.name).filter isOther =
          (directory.entriesOf schema.name).filter isOther ∧
        (desired.dryRun = true → ∀ type, after.entriesOf type = directory.entriesOf type) := by
  intro after isOther
  have hregistry := reachable.formed.registry_eq
  have hspares : Spares schema.name isOther directory after := by
    cases htarget : target? schema.toDeclaration desired with
    | none =>
      obtain ⟨failure, hrun⟩ := run_of_target?_eq_none htarget
      simp only [after, hrun]
      exact .refl _ _ directory
    | some texts =>
      simp only [after, isOther, htarget, Option.any_some]
      exact spares_run hregistry hschema (Confined.anything_of_target hschema htarget)
  exact ⟨hspares.others, hspares.own, fun hdry ↦
    (spares_dryRun hregistry hschema hdry).entriesOf_eq⟩

/-- A directory with two groups, of which a search for the first one finds both. -/
def twoGroups : Directory :=
  (((ofRegistry .builtin).post "group_add" (.arr [.arr [.str "ops"], .ofFields []])).2.post
    "group_add" (.arr [.arr [.str "devops"], .ofFields []])).2

/-- A group that is to be gone. -/
def absentGroup : DesiredState :=
  { DesiredState.ofState .absent false with
    identity := .ofList [("cn", .scalar (.str "OPS"))] }

theorem ensure_spares_others_absentGroup :
    let after :=
      (run transport (Ensure.run ObjectSchema.group.toDeclaration absentGroup) twoGroups).2
    let isOther := fun entry : Entry ↦
      !(target? ObjectSchema.group.toDeclaration absentGroup).any entry.isNamed
    (twoGroups.count "group" = 2 ∧ after.count "group" = 1) ∧
      (∀ type, type ≠ ObjectSchema.group.name →
        after.entriesOf type = twoGroups.entriesOf type) ∧
      (after.entriesOf ObjectSchema.group.name).filter isOther =
          (twoGroups.entriesOf ObjectSchema.group.name).filter isOther ∧
        (absentGroup.dryRun = true → ∀ type, after.entriesOf type = twoGroups.entriesOf type) :=
  ⟨by decide +kernel, ensure_spares_others (.post _ _ (.post _ _ .empty))
    (by simp [ObjectSchema.builtins]) absentGroup⟩

end Directory

end DirectoryReconcile
