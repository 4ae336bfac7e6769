import DirectoryReconcile.Proofs.Directory.Focus
import DirectoryReconcile.Proofs.Steps

/-!
# Operations on one entry

What each operation does to the entry with the identity of its call. It looks at no other entry:
carried out on that entry alone it gives the same result, and the entry it leaves goes back to its
place among the others.
-/

namespace DirectoryReconcile

namespace Operation

open Entry

variable {declaration : Declaration} {entries : List Entry} {arguments : Arguments}
  {identity : List String}

/-! ## Programs over the entries -/

@[simp]
theorem run_liftExcept {α : Type} (check : Except Refusal α) (entries : List Entry) :
    (liftExcept check : Update α).run entries =
      match check with
      | .ok value => .ok value entries
      | .error refusal => .error refusal entries := by
  cases check <;> rfl

theorem run_existing (declaration : Declaration) (identity : List String) (entries : List Entry) :
    (existing declaration identity).run entries =
      match focus identity entries with
      | some entry => .ok entry entries
      | none => .error (.notFound declaration identity) entries := by
  simp only [existing, focus, EStateM.run_bind, EStateM.run_get]
  cases entries.find? fun entry ↦ entry.isNamed identity <;> rfl

/-- The end of a program that a refusal brings back to where it began. -/
def settled (entries : List Entry) :
    Except Refusal (Json × List Entry) → EStateM.Result Refusal (List Entry) Json
  | .ok (result, after) => .ok result after
  | .error refusal => .error refusal entries

/-- The result of an operation and the entries afterwards, unless it is refused. -/
def perform (declaration : Declaration) (entries : List Entry) (arguments : Arguments)
    (operation : Operation) : Except Refusal (Json × List Entry) :=
  match (operation.execute declaration arguments).run entries with
  | .ok result after => .ok (result, after)
  | .error refusal _ => .error refusal

theorem perform_eq (operation : Operation) {done : Except Refusal (Json × List Entry)}
    (h : (operation.execute declaration arguments).run entries = settled entries done) :
    operation.perform declaration entries arguments = done := by
  unfold perform
  rw [h]
  cases done <;> rfl

theorem focus_toList_eq_some {found : Entry} (hfound : focus identity entries = some found) :
    focus identity [found] = some found :=
  focus_singleton (namedBy_focus identity entries found hfound)

/-! ## What an operation does to the entry it finds -/

theorem length_of_identityOf (hid : identityOf declaration arguments.positional = .ok identity) :
    identity.length = declaration.identityAttributes.length := by
  simp only [identityOf] at hid
  split at hid
  · simp at hid
  next hnone =>
    cases Except.ok.inj hid
    have hle : declaration.identityKeys.length ≤ arguments.positional.length := by
      simpa using hnone
    rw [List.length_map, List.length_take, Nat.min_eq_left hle, Declaration.identityKeys,
      List.length_map]

/-- Operations on an object that exists. -/
def NeedsObject : Operation → Prop
  | .modify | .remove | .setEnabled _ | .listRemove _ => True
  | .find | .add | .listAdd _ => False

theorem execute_of_unnamed {operation : Operation} {refusal : Refusal} (hfind : operation ≠ .find)
    (hid : identityOf declaration arguments.positional = .error refusal) :
    (operation.execute declaration arguments).run entries = .error refusal entries := by
  cases operation with
  | find => exact absurd rfl hfind
  | add | modify | remove | setEnabled | listAdd | listRemove =>
    simp only [execute, create, change, delete, setFlag, addValues, removeValues, EStateM.run_bind,
      run_liftExcept, hid]

theorem execute_of_none {operation : Operation} (hneeds : operation.NeedsObject)
    (hid : identityOf declaration arguments.positional = .ok identity)
    (hnone : focus identity entries = none) :
    (operation.execute declaration arguments).run entries =
      .error (.notFound declaration identity) entries := by
  cases operation with
  | modify | remove | setEnabled | listRemove =>
    simp only [execute, change, delete, setFlag, removeValues, EStateM.run_bind, run_liftExcept, hid,
      run_existing, hnone]
  | find | add | listAdd => exact hneeds.elim

theorem perform_of_none {operation : Operation} (hneeds : operation.NeedsObject)
    (hid : identityOf declaration arguments.positional = .ok identity)
    (hnone : focus identity entries = none) :
    operation.perform declaration entries arguments = .error (.notFound declaration identity) :=
  perform_eq operation (execute_of_none hneeds hid hnone)

theorem create_of_none (hid : identityOf declaration arguments.positional = .ok identity)
    (hnone : focus identity entries = none) :
    (create declaration arguments).run entries = settled entries
      ((applyOptions declaration (named declaration identity).attrs arguments.item).map fun attrs ↦
        (report declaration "Added" (render declaration ⟨identity, attrs⟩)
          (.str (primaryKey identity)) identity, entries ++ [⟨identity, attrs⟩])) := by
  have hany : (entries.any fun entry ↦ entry.isNamed identity) = false := by
    rw [any_isNamed, hnone, Option.isSome_none]
  simp only [create, EStateM.run_bind, EStateM.run_get, run_liftExcept, hid, hany,
    Bool.false_eq_true, if_false]
  cases applyOptions declaration (named declaration identity).attrs arguments.item <;> rfl

theorem create_of_some {found : Entry}
    (hid : identityOf declaration arguments.positional = .ok identity)
    (hfound : focus identity entries = some found) :
    (create declaration arguments).run entries =
      settled entries (.error (.duplicate declaration identity)) := by
  have hany : (entries.any fun entry ↦ entry.isNamed identity) = true := by
    rw [any_isNamed, hfound, Option.isSome_some]
  simp only [create, EStateM.run_bind, EStateM.run_get, run_liftExcept, hid, hany, if_true]
  rfl

theorem change_of_some {found : Entry}
    (hid : identityOf declaration arguments.positional = .ok identity)
    (hfound : focus identity entries = some found) :
    (change declaration arguments).run entries = settled entries
      ((applyOptions declaration found.attrs arguments.item).bind fun attrs ↦
        if sameAttrs attrs found.attrs then .error .noChange
        else .ok (report declaration "Modified" (render declaration { found with attrs := attrs })
          (.str (primaryKey identity)) identity, replace { found with attrs := attrs } entries)) := by
  simp only [change, EStateM.run_bind, run_liftExcept, hid, run_existing, hfound]
  cases applyOptions declaration found.attrs arguments.item with
  | error refusal => rfl
  | ok attrs =>
    simp only [Except.bind]
    split <;> rfl

theorem delete_of_some {found : Entry}
    (hid : identityOf declaration arguments.positional = .ok identity)
    (hfound : focus identity entries = some found) :
    (delete declaration arguments).run entries = settled entries
      (.ok (deletion declaration identity, discard found.identity entries)) := by
  simp only [delete, EStateM.run_bind, EStateM.run_get, run_liftExcept, hid, run_existing, hfound]
  rfl

/-- The key that carries the flag of an object. -/
def flagKey (declaration : Declaration) (flag : EnableSpec) : String :=
  ((declaration.attribute? flag.attr).map AttributeSpec.responseKey).getD flag.attr

theorem flagKey_eq {flag : EnableSpec} {spec : AttributeSpec}
    (hattribute : declaration.attribute? flag.attr = some spec) :
    flagKey declaration flag = spec.responseKey := by
  unfold flagKey
  rw [hattribute, Option.map_some, Option.getD_some]

/-- Attributes with the flag set. -/
def withFlag (declaration : Declaration) (flag : EnableSpec) (enabled : Bool) (attrs : Dict Json) :
    Dict Json :=
  attrs.insert (flagKey declaration flag) (.arr [.bool (flag.storedValue enabled)])

theorem setFlag_of_some {found : Entry} (enabled : Bool)
    (hid : identityOf declaration arguments.positional = .ok identity)
    (hfound : focus identity entries = some found) :
    (setFlag declaration enabled arguments).run entries = settled entries
      (match declaration.enable with
      | none => .error .withoutFlag
      | some flag =>
        if (declaration.isEnabled found.attrs).toOption.getD true = enabled then
          .error (if enabled then .alreadyEnabled else .alreadyDisabled)
        else
          .ok (report declaration (if enabled then "Enabled" else "Disabled") (.bool true)
            (.str (primaryKey identity)) identity,
            replace { found with attrs := withFlag declaration flag enabled found.attrs }
              entries)) := by
  simp only [setFlag, EStateM.run_bind, run_liftExcept, hid, run_existing, hfound]
  cases declaration.enable with
  | none => rfl
  | some flag =>
    simp only
    split <;> rfl

theorem addValues_of_some {found : Entry} (specs : List AttributeSpec)
    (hid : identityOf declaration arguments.positional = .ok identity)
    (hfound : focus identity entries = some found) :
    (addValues declaration specs arguments).run entries = settled entries
      (let pushed := changeLists Stored.pushValues arguments identity.length specs found.attrs
      .ok (listReport declaration pushed.2 { found with attrs := pushed.1 },
        replace { found with attrs := pushed.1 } entries)) := by
  simp only [addValues, EStateM.run_bind, EStateM.run_get, run_liftExcept, hid, any_isNamed, hfound,
    Option.isSome_some, Bool.not_true, Bool.and_false, Bool.false_eq_true, if_false, run_existing]
  rfl

/-- The entry that the first list values create is there when they are added to it. -/
theorem addValues_of_none (specs : List AttributeSpec)
    (hid : identityOf declaration arguments.positional = .ok identity)
    (hnone : focus identity entries = none) :
    (addValues declaration specs arguments).run entries = settled entries
      (let pushed := changeLists Stored.pushValues arguments identity.length specs
        (named declaration identity).attrs
      if declaration.creation = .implicit then
        .ok (listReport declaration pushed.2 ⟨identity, pushed.1⟩, entries ++ [⟨identity, pushed.1⟩])
      else .error (.notFound declaration identity)) := by
  simp only [addValues, EStateM.run_bind, EStateM.run_get, run_liftExcept, hid, any_isNamed, hnone,
    Option.isSome_none, Bool.not_false, Bool.and_true, decide_eq_true_eq]
  by_cases himplicit : declaration.creation = .implicit
  · have hself : (named declaration identity).isNamed identity := sameIdentity_refl identity
    have hcreated : focus identity (entries ++ [named declaration identity]) =
        some (named declaration identity) := by
      rw [focus_append, hnone, focus_singleton hself, Option.none_or]
    simp only [himplicit, if_true, EStateM.run_bind, EStateM.run_set, run_existing, hcreated,
      EStateM.run_get]
    rw [replace_append_of_focus_eq_none (named declaration identity) hnone hself]
    rfl
  · simp only [himplicit, if_false, EStateM.run_bind, run_existing, hnone]
    rfl

theorem removeValues_of_some {found : Entry} (specs : List AttributeSpec)
    (hid : identityOf declaration arguments.positional = .ok identity)
    (hfound : focus identity entries = some found) :
    (removeValues declaration specs arguments).run entries = settled entries
      (let dropped := changeLists Stored.dropValues arguments identity.length specs found.attrs
      if isEmptied declaration dropped.1 then
        .ok (deletion declaration identity, discard found.identity entries)
      else
        .ok (listReport declaration dropped.2 { found with attrs := dropped.1 },
          replace { found with attrs := dropped.1 } entries)) := by
  have hself (attrs : Dict Json) : isNamed { found with attrs := attrs } found.identity :=
    sameIdentity_refl _
  simp only [removeValues, EStateM.run_bind, EStateM.run_get, EStateM.run_set, run_liftExcept, hid,
    run_existing, hfound]
  split
  · exact congrArg (EStateM.Result.ok _) (discard_replace (hself _) entries)
  · rfl

/-! ## Refusals -/

/-- An operation that is refused leaves the entries as they were. -/
theorem execute_eq (declaration : Declaration) (entries : List Entry) (arguments : Arguments)
    (operation : Operation) :
    (operation.execute declaration arguments).run entries =
      settled entries (operation.perform declaration entries arguments) := by
  have hsettled : ∃ done,
      (operation.execute declaration arguments).run entries = settled entries done := by
    by_cases hfind : operation = .find
    · exact ⟨.ok (search declaration entries arguments, entries), by rw [hfind]; rfl⟩
    cases hid : identityOf declaration arguments.positional with
    | error refusal => exact ⟨.error refusal, execute_of_unnamed hfind hid⟩
    | ok identity =>
      cases hfound : focus identity entries with
      | none =>
        cases operation with
        | find => exact absurd rfl hfind
        | add => exact ⟨_, create_of_none hid hfound⟩
        | listAdd specs => exact ⟨_, addValues_of_none specs hid hfound⟩
        | modify | remove | setEnabled | listRemove =>
          exact ⟨.error (.notFound declaration identity), execute_of_none trivial hid hfound⟩
      | some found =>
        cases operation with
        | find => exact absurd rfl hfind
        | add => exact ⟨_, create_of_some hid hfound⟩
        | modify => exact ⟨_, change_of_some hid hfound⟩
        | remove => exact ⟨_, delete_of_some hid hfound⟩
        | setEnabled enabled => exact ⟨_, setFlag_of_some enabled hid hfound⟩
        | listAdd specs => exact ⟨_, addValues_of_some specs hid hfound⟩
        | listRemove specs => exact ⟨_, removeValues_of_some specs hid hfound⟩
  obtain ⟨done, hdone⟩ := hsettled
  rw [perform_eq operation hdone, hdone]

@[simp]
theorem perform_find (declaration : Declaration) (entries : List Entry) (arguments : Arguments) :
    Operation.find.perform declaration entries arguments =
      .ok (search declaration entries arguments, entries) :=
  perform_eq .find rfl

/-! ## The same on that entry alone -/

/-- The entry an operation leaves, back at its place among the others. -/
def backInto (identity : List String) (entries : List Entry) (done : Json × List Entry) :
    Json × List Entry :=
  (done.1, put identity done.2.head? entries)

theorem backInto_replace {found : Entry} (result : Json) (attrs : Dict Json)
    (hfound : focus identity entries = some found) :
    backInto identity entries (result, replace { found with attrs := attrs } [found]) =
      (result, replace { found with attrs := attrs } entries) := by
  have hsome : (entries.any fun other ↦ other.isNamed identity) = true := by
    rw [any_isNamed, hfound, Option.isSome_some]
  have hself : found.isNamed found.identity := sameIdentity_refl _
  simp [backInto, replace, put, hsome, hself]

theorem backInto_discard {found : Entry} (result : Json)
    (hfound : focus identity entries = some found) :
    backInto identity entries (result, discard found.identity [found]) =
      (result, discard found.identity entries) := by
  have hself : found.isNamed found.identity := sameIdentity_refl _
  have hnamed : sameIdentity found.identity identity := namedBy_focus identity entries found hfound
  simp [backInto, discard, put, hself, discard_congr (sameIdentity_symm hnamed)]

theorem backInto_append (result : Json) (entry : Entry) (hnone : focus identity entries = none) :
    backInto identity entries (result, [] ++ [entry]) = (result, entries ++ [entry]) := by
  have hany : (entries.any fun other ↦ other.isNamed identity) = false := by
    rw [any_isNamed, hnone, Option.isSome_none]
  simp [backInto, put, hany]

/-- An operation other than the search, carried out on the entry with the identity of the call
alone. -/
theorem perform_focus {operation : Operation} (hfind : operation ≠ .find)
    (hid : identityOf declaration arguments.positional = .ok identity) :
    operation.perform declaration entries arguments =
      (operation.perform declaration (focus identity entries).toList arguments).map
        (backInto identity entries) := by
  cases hfound : focus identity entries with
  | none =>
    have halone : focus identity (none : Option Entry).toList = none := rfl
    have hmissing (hneeds : operation.NeedsObject) :
        operation.perform declaration entries arguments =
          (operation.perform declaration (none : Option Entry).toList arguments).map
            (backInto identity entries) := by
      rw [perform_of_none hneeds hid hfound, perform_of_none hneeds hid halone]
      rfl
    cases operation with
    | find => exact absurd rfl hfind
    | add =>
      rw [perform_eq .add (create_of_none hid hfound), perform_eq .add (create_of_none hid halone)]
      cases applyOptions declaration (named declaration identity).attrs arguments.item with
      | error refusal => rfl
      | ok attrs => exact congrArg Except.ok (backInto_append _ _ hfound).symm
    | modify | remove | setEnabled | listRemove =>
      exact hmissing trivial
    | listAdd specs =>
      rw [perform_eq (.listAdd specs) (addValues_of_none specs hid hfound),
        perform_eq (.listAdd specs) (addValues_of_none specs hid halone)]
      by_cases himplicit : declaration.creation = .implicit
      · simp only [himplicit, if_true]
        exact congrArg Except.ok (backInto_append _ _ hfound).symm
      · simp only [himplicit, if_false]
        rfl
  | some found =>
    have halone : focus identity (some found).toList = some found := focus_toList_eq_some hfound
    cases operation with
    | find => exact absurd rfl hfind
    | add =>
      rw [perform_eq .add (create_of_some hid hfound), perform_eq .add (create_of_some hid halone)]
      rfl
    | modify =>
      rw [perform_eq .modify (change_of_some hid hfound),
        perform_eq .modify (change_of_some hid halone)]
      cases applyOptions declaration found.attrs arguments.item with
      | error refusal => rfl
      | ok attrs =>
        simp only [Except.bind]
        split
        · rfl
        · exact congrArg Except.ok (backInto_replace _ _ hfound).symm
    | remove =>
      rw [perform_eq .remove (delete_of_some hid hfound),
        perform_eq .remove (delete_of_some hid halone)]
      exact congrArg Except.ok (backInto_discard _ hfound).symm
    | setEnabled enabled =>
      rw [perform_eq (.setEnabled enabled) (setFlag_of_some enabled hid hfound),
        perform_eq (.setEnabled enabled) (setFlag_of_some enabled hid halone)]
      cases declaration.enable with
      | none => rfl
      | some flag =>
        simp only
        split
        · rfl
        · exact congrArg Except.ok (backInto_replace _ _ hfound).symm
    | listAdd specs =>
      rw [perform_eq (.listAdd specs) (addValues_of_some specs hid hfound),
        perform_eq (.listAdd specs) (addValues_of_some specs hid halone)]
      exact congrArg Except.ok (backInto_replace _ _ hfound).symm
    | listRemove specs =>
      rw [perform_eq (.listRemove specs) (removeValues_of_some specs hid hfound),
        perform_eq (.listRemove specs) (removeValues_of_some specs hid halone)]
      simp only
      split
      · exact congrArg Except.ok (backInto_discard _ hfound).symm
      · exact congrArg Except.ok (backInto_replace _ _ hfound).symm

/-! ## What an operation leaves -/

theorem implicit_of_isEmptied {attrs : Dict Json} (h : isEmptied declaration attrs = true) :
    declaration.creation = .implicit := by
  unfold isEmptied at h
  exact of_decide_eq_true (Bool.and_eq_true_iff.1 h).1

/-- The entry that an operation other than the search leaves, and its report, when it is carried out
on one entry, or on none. -/
inductive Leaves (declaration : Declaration) (identity : List String) (arguments : Arguments) :
    Operation → Option Entry → Json → Option Entry → Prop
  | created {attrs : Dict Json}
      (happlied : applyOptions declaration (named declaration identity).attrs arguments.item =
        .ok attrs) :
      Leaves declaration identity arguments .add none
        (report declaration "Added" (render declaration ⟨identity, attrs⟩)
          (.str (primaryKey identity)) identity) (some ⟨identity, attrs⟩)
  | changed {found : Entry} {attrs : Dict Json}
      (happlied : applyOptions declaration found.attrs arguments.item = .ok attrs) :
      Leaves declaration identity arguments .modify (some found)
        (report declaration "Modified" (render declaration { found with attrs := attrs })
          (.str (primaryKey identity)) identity) (some { found with attrs := attrs })
  | removed {found : Entry} :
      Leaves declaration identity arguments .remove (some found) (deletion declaration identity) none
  | flagged {found : Entry} {flag : EnableSpec} {enabled : Bool} {verb : String}
      (henable : declaration.enable = some flag) :
      Leaves declaration identity arguments (.setEnabled enabled) (some found)
        (report declaration verb (.bool true) (.str (primaryKey identity)) identity)
        (some { found with attrs := withFlag declaration flag enabled found.attrs })
  /-- The first list values of an object create it. -/
  | begun {specs : List AttributeSpec} {completed : Nat} {attrs : Dict Json}
      (himplicit : declaration.creation = .implicit)
      (hpushed : (changeLists Stored.pushValues arguments identity.length specs
        (named declaration identity).attrs).1 = attrs) :
      Leaves declaration identity arguments (.listAdd specs) none
        (listReport declaration completed ⟨identity, attrs⟩) (some ⟨identity, attrs⟩)
  | extended {found : Entry} {specs : List AttributeSpec} {completed : Nat} {attrs : Dict Json}
      (hpushed : (changeLists Stored.pushValues arguments identity.length specs found.attrs).1 =
        attrs) :
      Leaves declaration identity arguments (.listAdd specs) (some found)
        (listReport declaration completed { found with attrs := attrs })
        (some { found with attrs := attrs })
  | reduced {found : Entry} {specs : List AttributeSpec} {completed : Nat} {attrs : Dict Json}
      (hdropped : (changeLists Stored.dropValues arguments identity.length specs found.attrs).1 =
        attrs) :
      Leaves declaration identity arguments (.listRemove specs) (some found)
        (listReport declaration completed { found with attrs := attrs })
        (some { found with attrs := attrs })
  /-- The last list values of an object take it with them. -/
  | emptied {found : Entry} {specs : List AttributeSpec} {attrs : Dict Json}
      (hdropped : (changeLists Stored.dropValues arguments identity.length specs found.attrs).1 =
        attrs)
      (hemptied : isEmptied declaration attrs = true) :
      Leaves declaration identity arguments (.listRemove specs) (some found)
        (deletion declaration identity) none

theorem head?_replace (found : Entry) (attrs : Dict Json) :
    (replace { found with attrs := attrs } [found]).head? = some { found with attrs := attrs } := by
  have hself : found.isNamed found.identity := sameIdentity_refl _
  simp only [replace, hself, if_true, List.head?_cons]

theorem head?_discard (found : Entry) : (discard found.identity [found]).head? = none := by
  have hself : found.isNamed found.identity := sameIdentity_refl _
  simp only [discard, hself, if_true, List.head?_nil]

theorem leaves_of_perform_none {operation : Operation} (hfind : operation ≠ .find)
    (hid : identityOf declaration arguments.positional = .ok identity) {result : Json}
    {left : List Entry} (h : operation.perform declaration [] arguments = .ok (result, left)) :
    Leaves declaration identity arguments operation none result left.head? := by
  have hnone : focus identity [] = none := rfl
  cases operation with
  | find => exact absurd rfl hfind
  | add =>
    rw [perform_eq .add (create_of_none hid hnone)] at h
    obtain ⟨attrs, happlied, hdone⟩ := map_eq_ok.1 h
    cases hdone
    exact .created happlied
  | listAdd specs =>
    rw [perform_eq (.listAdd specs) (addValues_of_none specs hid hnone)] at h
    simp only at h
    split at h
    next himplicit =>
      cases h
      exact .begun himplicit rfl
    next => simp at h
  | modify | remove | setEnabled | listRemove =>
    cases h.symm.trans (perform_of_none trivial hid hnone)

theorem leaves_of_perform_some {operation : Operation} (hfind : operation ≠ .find)
    (hid : identityOf declaration arguments.positional = .ok identity) {found : Entry}
    (hnamed : found.isNamed identity) {result : Json} {left : List Entry}
    (h : operation.perform declaration [found] arguments = .ok (result, left)) :
    Leaves declaration identity arguments operation (some found) result left.head? := by
  have hfound : focus identity [found] = some found := focus_singleton hnamed
  cases operation with
  | find => exact absurd rfl hfind
  | add =>
    rw [perform_eq .add (create_of_some hid hfound)] at h
    simp at h
  | modify =>
    rw [perform_eq .modify (change_of_some hid hfound)] at h
    obtain ⟨attrs, happlied, h⟩ := bind_eq_ok.1 h
    split at h
    next => simp at h
    next =>
      cases h
      rw [head?_replace]
      exact .changed happlied
  | remove =>
    rw [perform_eq .remove (delete_of_some hid hfound)] at h
    cases h
    rw [head?_discard]
    exact .removed
  | setEnabled enabled =>
    rw [perform_eq (.setEnabled enabled) (setFlag_of_some enabled hid hfound)] at h
    cases henable : declaration.enable with
    | none => simp [henable] at h
    | some flag =>
      simp only [henable] at h
      split at h
      next => simp at h
      next =>
        cases h
        rw [head?_replace]
        exact .flagged henable
  | listAdd specs =>
    rw [perform_eq (.listAdd specs) (addValues_of_some specs hid hfound)] at h
    cases h
    rw [head?_replace]
    exact .extended rfl
  | listRemove specs =>
    rw [perform_eq (.listRemove specs) (removeValues_of_some specs hid hfound)] at h
    simp only at h
    split at h
    next hemptied =>
      cases h
      rw [head?_discard]
      exact .emptied rfl hemptied
    next =>
      cases h
      rw [head?_replace]
      exact .reduced rfl

theorem leaves_of_perform {operation : Operation} (hfind : operation ≠ .find)
    (hid : identityOf declaration arguments.positional = .ok identity) {held : Option Entry}
    (hnamed : NamedBy identity held) {result : Json} {left : List Entry}
    (h : operation.perform declaration held.toList arguments = .ok (result, left)) :
    Leaves declaration identity arguments operation held result left.head? := by
  cases held with
  | none => exact leaves_of_perform_none hfind hid h
  | some found => exact leaves_of_perform_some hfind hid (hnamed found rfl) h

/-- What the changes of an operation to the attributes of an entry keep holds of the entry that the
operation leaves. -/
theorem Leaves.keeps {operation : Operation} {held held' : Option Entry} {result : Json}
    (h : Leaves declaration identity arguments operation held result held') {good : Entry → Prop}
    (hnamed : NamedBy identity held) (hheld : ∀ entry ∈ held, good entry)
    (hnew : good (named declaration identity))
    (happly : operation = .add ∨ operation = .modify → ∀ entry attrs, good entry →
      applyOptions declaration entry.attrs arguments.item = .ok attrs →
        good { entry with attrs := attrs })
    (hflag : ∀ flag ∈ declaration.enable, ∀ enabled entry, good entry →
      good { entry with attrs := withFlag declaration flag enabled entry.attrs })
    (hpush : ∀ specs, operation = .listAdd specs → ∀ entry, good entry → good { entry with
      attrs := (changeLists Stored.pushValues arguments identity.length specs entry.attrs).1 })
    (hdrop : ∀ specs, operation = .listRemove specs → ∀ entry, good entry → good { entry with
      attrs := (changeLists Stored.dropValues arguments identity.length specs entry.attrs).1 }) :
    NamedBy identity held' ∧ ∀ entry ∈ held', good entry := by
  have hself : (named declaration identity).isNamed identity := sameIdentity_refl identity
  have hleft {entry : Entry} (hname : entry.isNamed identity) (hgood : good entry) :
      NamedBy identity (some entry) ∧ ∀ other ∈ some entry, good other :=
    ⟨by rintro _ ⟨⟩; exact hname, by rintro _ ⟨⟩; exact hgood⟩
  have hgone : NamedBy identity none ∧ ∀ other ∈ (none : Option Entry), good other :=
    ⟨namedBy_none identity, by simp⟩
  cases h with
  | created happlied => exact hleft hself (happly (.inl rfl) _ _ hnew happlied)
  | @changed found attrs happlied =>
    exact hleft (hnamed found rfl) (happly (.inr rfl) found attrs (hheld found rfl) happlied)
  | @flagged found flag enabled _ henable =>
    exact hleft (hnamed found rfl) (hflag flag henable enabled found (hheld found rfl))
  | @begun specs _ _ _ hpushed =>
    subst hpushed
    exact hleft hself (hpush specs rfl _ hnew)
  | @extended found specs _ _ hpushed =>
    subst hpushed
    exact hleft (hnamed found rfl) (hpush specs rfl found (hheld found rfl))
  | @reduced found specs _ _ hdropped =>
    subst hdropped
    exact hleft (hnamed found rfl) (hdrop specs rfl found (hheld found rfl))
  | removed | emptied => exact hgone

end Operation

end DirectoryReconcile
