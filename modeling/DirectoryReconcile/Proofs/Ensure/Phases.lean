import DirectoryReconcile.Ensure
import DirectoryReconcile.Proofs.Ascending
import DirectoryReconcile.Proofs.Dict
import DirectoryReconcile.Proofs.Directory.Routing
import Mathlib.Data.List.Induction

/-!
# The calls of one phase

One call for each method that takes the values of a list. A call has the values of its own lists,
each at its place, and does not depend on the others.
-/

namespace DirectoryReconcile

namespace Ensure

open Declaration Operation

variable (declaration : Declaration)

/-- The method that takes the values of a list attribute. -/
def listMethod (adding : Bool) (spec : AttributeSpec) : String :=
  (spec.route.map fun route ↦ route.method adding).getD declaration.methods.modify

/-- Whether values by attribute name belong into the call of this method. -/
def belongs (adding : Bool) (method name : String) : Bool :=
  (declaration.attribute? name).any fun spec ↦ listMethod declaration adding spec = method

/-- The calls of one phase by method. -/
def phaseTable (identity : Identity) (adding : Bool) (lists : Dict (List Scalar)) :
    Dict RemoteCall :=
  let positional := declaration.positional identity
  let routed := routedCalls declaration positional adding lists
  match assignments declaration lists with
  | [] => routed
  | texts =>
    let method := declaration.methods.modify
    let call := (routed.get? method).getD (.plain method positional)
    let options := [(if adding then "addattr" else "delattr", Json.ofStrings texts),
      ("all", .bool true)]
    routed.insert method { call with item := call.item.insertMany options }

theorem phaseCalls_eq (identity : Identity) (adding : Bool) (lists : Dict (List Scalar)) :
    phaseCalls declaration identity adding lists =
      (phaseTable declaration identity adding lists).values := by
  unfold phaseCalls
  rw [phaseTable]
  cases assignments declaration lists <;> rfl

variable {declaration}

/-- The value at the place that a route has in a call, after the identity. -/
def valueAt (length : Nat) (route : ListRoute) (call : RemoteCall) : Option Json :=
  match route.style with
  | .keyword => call.item.get? route.param
  | .positional => call.positional[length]?

/-- What a call holds of the values among these entries. -/
structure Holds (declaration : Declaration) (positional : List Json) (adding : Bool)
    (method : String) (entries : List (String × List Scalar)) (call : RemoteCall) : Prop where
  method_eq : call.method = method
  leading : ∃ others, call.positional = positional ++ others
  values : ∀ spec ∈ routedBy declaration adding method, ∀ route ∈ spec.route,
    valueAt positional.length route call =
      (Dict.lookupEntry spec.name entries).map fun values ↦ spec.encode (.list values)

theorem lookupEntry_append {α : Type} (key : String) (first second : List (String × α)) :
    Dict.lookupEntry key (first ++ second) =
      (Dict.lookupEntry key first).or (Dict.lookupEntry key second) := by
  induction first with
  | nil => rfl
  | cons head rest ih =>
    rw [List.cons_append, Dict.lookupEntry, Dict.lookupEntry]
    split
    · rfl
    · exact ih

theorem lookupEntry_eq_none_of_not_mem {α : Type} {key : String} {entries : List (String × α)}
    (h : key ∉ entries.map (·.1)) : Dict.lookupEntry key entries = none := by
  by_contra hsome
  exact h (Dict.lookupEntry_isSome_iff.1 (Option.isSome_iff_ne_none.2 hsome))

variable (regular : declaration.Regular) {adding : Bool} {method : String}
  {positional : List Json} {entries : List (String × List Scalar)}

theorem holds_plain (hentries : ∀ spec ∈ routedBy declaration adding method,
      spec.name ∉ entries.map (·.1)) :
    Holds declaration positional adding method entries (.plain method positional) := by
  refine ⟨rfl, ⟨[], (List.append_nil _).symm⟩, fun spec hspec route hroute ↦ ?_⟩
  rw [lookupEntry_eq_none_of_not_mem (hentries spec hspec), valueAt]
  cases route.style with
  | keyword => rfl
  | positional => simp [RemoteCall.plain]

/-- Values that belong to another method are nothing to a call. -/
theorem Holds.skip {call : RemoteCall}
    (h : Holds declaration positional adding method entries call) {name : String}
    (hother : ∀ spec ∈ routedBy declaration adding method, spec.name ≠ name)
    (values : List Scalar) :
    Holds declaration positional adding method (entries ++ [(name, values)]) call := by
  refine ⟨h.method_eq, h.leading, fun spec hspec route hroute ↦ ?_⟩
  have hlast : Dict.lookupEntry spec.name [(name, values)] = none := by
    unfold Dict.lookupEntry
    rw [if_neg (hother spec hspec).symm, Dict.lookupEntry]
  rw [h.values spec hspec route hroute, lookupEntry_append, hlast, Option.or_none]

include regular

/-- Values that are put at the place of their route leave the places of the others alone. -/
theorem Holds.place {call : RemoteCall}
    (h : Holds declaration positional adding method entries call) {spec : AttributeSpec}
    (hspec : spec ∈ routedBy declaration adding method) {route : ListRoute}
    (hroute : spec.route = some route) (hnew : spec.name ∉ entries.map (·.1))
    (values : List Scalar) :
    Holds declaration positional adding method (entries ++ [(spec.name, values)])
      (place route (spec.encode (.list values)) call) := by
  obtain ⟨others, hothers⟩ := h.leading
  obtain ⟨hmem, route', hroute', hmethod⟩ := mem_routedBy.1 hspec
  cases hroute.symm.trans hroute'
  have hfree := h.values spec hspec route hroute
  rw [lookupEntry_eq_none_of_not_mem hnew, Option.map_none] at hfree
  constructor
  · unfold Ensure.place
    cases route.style <;> exact h.method_eq
  · unfold Ensure.place
    cases route.style with
    | keyword => exact ⟨others, hothers⟩
    | positional => exact ⟨others ++ [spec.encode (.list values)], by simp [hothers]⟩
  · intro other hother place hplace
    obtain ⟨hmem', place', hplace', hmethod'⟩ := mem_routedBy.1 hother
    cases hplace'.symm.trans hplace
    rw [lookupEntry_append]
    by_cases hname : other.name = spec.name
    · obtain rfl := regular.eq_of_name_eq hmem' hmem hname
      cases hroute.symm.trans hplace
      rw [lookupEntry_eq_none_of_not_mem hnew, Option.none_or, Dict.lookupEntry, if_pos rfl,
        Option.map_some, valueAt, Ensure.place]
      cases hstyle : route.style with
      | keyword => exact Dict.get?_insert_self _ _ _
      | positional =>
        have hnone : others = [] := by
          simpa [valueAt, hstyle, hothers] using hfree
        simp [hothers, hnone]
    · obtain ⟨hkeyword, hkeyword', hparam⟩ :=
        regular.routes_apart spec hmem other hmem' adding route hroute place hplace
          (Ne.symm hname) (hmethod.trans hmethod'.symm)
      have hlast : Dict.lookupEntry other.name [(spec.name, values)] = none := by
        unfold Dict.lookupEntry
        rw [if_neg (Ne.symm hname), Dict.lookupEntry]
      have hold := h.values other hother place hplace
      rw [hlast, Option.or_none, ← hold, valueAt, valueAt, hkeyword', Ensure.place, hkeyword]
      exact (Dict.get?_insert _ _ _ _).trans (if_neg hparam)

/-- The call of a method after the values among these entries were put in their places: there is
one as soon as a value belongs to the method. -/
def Gathered (declaration : Declaration) (positional : List Json) (adding : Bool) (method : String)
    (entries : List (String × List Scalar)) (call? : Option RemoteCall) : Prop :=
  (call? = none ∧ ∀ spec ∈ routedBy declaration adding method, spec.name ∉ entries.map (·.1)) ∨
    ∃ call, call? = some call ∧ Holds declaration positional adding method entries call ∧
      ∃ spec ∈ routedBy declaration adding method, spec.name ∈ entries.map (·.1)

omit regular in
theorem Gathered.skip {call? : Option RemoteCall}
    (h : Gathered declaration positional adding method entries call?) {name : String}
    (hother : ∀ spec ∈ routedBy declaration adding method, spec.name ≠ name)
    (values : List Scalar) :
    Gathered declaration positional adding method (entries ++ [(name, values)]) call? := by
  rcases h with ⟨hnone, hnew⟩ | ⟨call, hcall, hholds, spec, hspec, hmem⟩
  · refine .inl ⟨hnone, fun spec hspec hmem ↦ ?_⟩
    rw [List.map_append, List.mem_append] at hmem
    rcases hmem with hmem | hmem
    · exact hnew spec hspec hmem
    · exact hother spec hspec (by simpa using hmem)
  · refine .inr ⟨call, hcall, hholds.skip hother values, spec, hspec, ?_⟩
    rw [List.map_append]
    exact List.mem_append_left _ hmem

theorem Gathered.place {call? : Option RemoteCall}
    (h : Gathered declaration positional adding method entries call?) {spec : AttributeSpec}
    (hspec : spec ∈ routedBy declaration adding method) {route : ListRoute}
    (hroute : spec.route = some route) (hnew : spec.name ∉ entries.map (·.1))
    (values : List Scalar) :
    Gathered declaration positional adding method (entries ++ [(spec.name, values)])
      (some (Ensure.place route (spec.encode (.list values))
        (call?.getD (.plain method positional)))) := by
  have hholds : Holds declaration positional adding method entries
      (call?.getD (.plain method positional)) := by
    rcases h with ⟨rfl, hnew⟩ | ⟨call, rfl, hholds, -⟩
    · exact holds_plain hnew
    · exact hholds
  exact .inr ⟨_, rfl, hholds.place regular hspec hroute hnew values, spec, hspec, by simp⟩

theorem gathered_foldl (hnodup : (entries.map (·.1)).Nodup) :
    Gathered declaration positional adding method entries
      ((entries.foldl (addRouted declaration positional adding) ∅).get? method) := by
  induction entries using List.reverseRecOn with
  | nil => exact .inl ⟨rfl, by simp⟩
  | append_singleton entries entry ih =>
    obtain ⟨name, values⟩ := entry
    rw [List.map_append, List.nodup_append] at hnodup
    have hnew : name ∉ entries.map (·.1) := fun h ↦ hnodup.2.2 name h name (by simp) rfl
    have ih := ih hnodup.1
    rw [List.foldl_append, List.foldl_cons, List.foldl_nil]
    generalize entries.foldl (addRouted declaration positional adding) ∅ = calls at ih ⊢
    unfold addRouted
    split
    next hnone =>
      refine ih.skip (fun spec hspec heq ↦ ?_) values
      rw [← heq, regular.attribute?_of_mem (mem_routedBy.1 hspec).1] at hnone
      simp at hnone
    next spec hattribute =>
      obtain ⟨hspec, rfl⟩ := regular.attribute?_eq_some_iff.1 hattribute
      have hself {other : AttributeSpec} (hother : other ∈ routedBy declaration adding method)
          (hname : other.name = spec.name) : other = spec :=
        regular.eq_of_name_eq (mem_routedBy.1 hother).1 hspec hname
      split
      next hroute =>
        refine ih.skip (fun other hother hname ↦ ?_) values
        obtain ⟨-, route, hsome, -⟩ := mem_routedBy.1 (hself hother hname ▸ hother)
        simp [hroute] at hsome
      next route hroute =>
        simp only
        by_cases hmethod : route.method adding = method
        · subst hmethod
          rw [Dict.get?_insert_self]
          exact ih.place regular (mem_routedBy.2 ⟨hspec, route, hroute, rfl⟩) hroute hnew values
        · rw [Dict.get?_insert, if_neg hmethod]
          refine ih.skip (fun other hother hname ↦ ?_) values
          obtain ⟨-, other, hsome, heq⟩ := mem_routedBy.1 (hself hother hname ▸ hother)
          cases hroute.symm.trans hsome
          exact hmethod heq

/-! ## Calls that do not depend on each other -/

omit regular in
theorem get?_addRouted_of_not_belongs {name : String}
    (h : belongs declaration adding method name = false) (calls : Dict RemoteCall)
    (values : List Scalar) :
    (addRouted declaration positional adding calls (name, values)).get? method =
      calls.get? method := by
  unfold addRouted
  split
  next => rfl
  next spec hattribute =>
    split
    next => rfl
    next route hroute =>
      have hmethod : route.method adding ≠ method := by
        simpa [belongs, hattribute, listMethod, hroute] using h
      exact (Dict.get?_insert _ _ _ _).trans (if_neg hmethod)

omit regular in
theorem get?_addRouted_congr {calls calls' : Dict RemoteCall}
    (h : calls.get? method = calls'.get? method) (entry : String × List Scalar) :
    (addRouted declaration positional adding calls entry).get? method =
      (addRouted declaration positional adding calls' entry).get? method := by
  simp only [addRouted]
  split
  next => exact h
  next spec hattribute =>
    split
    next => exact h
    next route hroute =>
      rw [Dict.get?_insert, Dict.get?_insert]
      split
      next heq => rw [heq, h]
      next => exact h

omit regular in
/-- The call of a method has only the values that belong to it. -/
theorem get?_foldl_addRouted_filter (entries : List (String × List Scalar))
    {calls calls' : Dict RemoteCall} (h : calls.get? method = calls'.get? method) :
    (entries.foldl (addRouted declaration positional adding) calls).get? method =
      ((entries.filter fun entry ↦ belongs declaration adding method entry.1).foldl
        (addRouted declaration positional adding) calls').get? method := by
  induction entries generalizing calls calls' with
  | nil => exact h
  | cons entry rest ih =>
    rw [List.foldl_cons, List.filter_cons]
    split
    · exact ih (get?_addRouted_congr h entry)
    next hnot =>
      rw [Bool.not_eq_true] at hnot
      exact ih ((get?_addRouted_of_not_belongs hnot calls entry.2).trans h)

omit regular in
theorem routedCalls_congr (positional : List Json) {lists lists' : Dict (List Scalar)}
    (h : ∀ name, belongs declaration adding method name → lists.get? name = lists'.get? name) :
    (routedCalls declaration positional adding lists).get? method =
      (routedCalls declaration positional adding lists').get? method := by
  have hfilter : (lists.filter fun name _ ↦ belongs declaration adding method name) =
      lists'.filter fun name _ ↦ belongs declaration adding method name := by
    apply Dict.ext
    intro name
    rw [Dict.get?_filter, Dict.get?_filter]
    by_cases hname : belongs declaration adding method name
    · rw [h name hname]
    · simp [hname]
  have hentries : (lists.entries.filter fun entry ↦ belongs declaration adding method entry.1) =
      lists'.entries.filter fun entry ↦ belongs declaration adding method entry.1 :=
    congrArg Dict.entries hfilter
  rw [routedCalls, routedCalls, get?_foldl_addRouted_filter _ rfl, hentries,
    ← get?_foldl_addRouted_filter lists'.entries rfl]

omit regular in
theorem mem_assignments {lists : Dict (List Scalar)} {text : String} :
    text ∈ assignments declaration lists ↔ ∃ name values spec, lists.get? name = some values ∧
      declaration.attribute? name = some spec ∧ spec.route = none ∧
        ∃ v ∈ values, text = assignment spec v := by
  unfold assignments
  rw [Ascending.mem_ofList, List.mem_flatMap]
  constructor
  · rintro ⟨⟨name, values⟩, hentry, htext⟩
    simp only at htext
    split at htext
    next spec hattribute =>
      split at htext
      next hroute =>
        obtain ⟨v, hv, rfl⟩ := List.mem_map.1 htext
        exact ⟨name, values, spec, lists.mem_entries_iff.1 hentry, hattribute, by simpa using hroute,
          v, hv, rfl⟩
      next => simp at htext
    next => simp at htext
  · rintro ⟨name, values, spec, hget, hattribute, hroute, v, hv, rfl⟩
    refine ⟨(name, values), lists.mem_entries_iff.2 hget, ?_⟩
    simp only [hattribute, hroute, Option.isNone_none, if_true]
    exact List.mem_map_of_mem hv

instance isTrans_string : IsTrans String (· < ·) := ⟨fun _ _ _ ↦ String.lt_trans⟩

instance irrefl_string : Std.Irrefl (α := String) (· < ·) := ⟨String.lt_irrefl⟩

instance trichotomous_string : Std.Trichotomous (α := String) (· < ·) :=
  ⟨fun _ _ hab hba ↦ String.le_antisymm (String.not_lt.1 hba) (String.not_lt.1 hab)⟩

omit regular in
theorem assignments_congr {lists lists' : Dict (List Scalar)}
    (h : ∀ name, belongs declaration adding declaration.methods.modify name →
      lists.get? name = lists'.get? name) :
    assignments declaration lists = assignments declaration lists' := by
  have hbelongs {name : String} {spec : AttributeSpec}
      (hattribute : declaration.attribute? name = some spec) (hroute : spec.route = none) :
      belongs declaration adding declaration.methods.modify name = true := by
    simp [belongs, hattribute, listMethod, hroute]
  have hmem (text : String) :
      text ∈ assignments declaration lists ↔ text ∈ assignments declaration lists' := by
    rw [mem_assignments, mem_assignments]
    constructor
    · rintro ⟨name, values, spec, hget, hattribute, hroute, hv⟩
      exact ⟨name, values, spec, h name (hbelongs hattribute hroute) ▸ hget, hattribute, hroute, hv⟩
    · rintro ⟨name, values, spec, hget, hattribute, hroute, hv⟩
      exact ⟨name, values, spec, (h name (hbelongs hattribute hroute)).symm ▸ hget, hattribute,
        hroute, hv⟩
  simp only [assignments, Ascending.mem_ofList] at hmem
  exact Ascending.ofList_eq_ofList_iff.2 hmem

/-- The options that carry assignments of list values. -/
def assignItem (adding : Bool) (texts : List String) : Dict Json :=
  (∅ : Dict Json).insertMany
    [(if adding then "addattr" else "delattr", Json.ofStrings texts), ("all", .bool true)]

/-- The call that carries assignments of list values. -/
def assignCall (declaration : Declaration) (positional : List Json) (adding : Bool)
    (texts : List String) : RemoteCall :=
  ⟨declaration.methods.modify, positional, assignItem adding texts⟩

theorem get?_routedCalls_modify (positional : List Json) (lists : Dict (List Scalar)) :
    (routedCalls declaration positional adding lists).get? declaration.methods.modify = none := by
  have hgathered : Gathered declaration positional adding declaration.methods.modify lists.entries _ :=
    gathered_foldl regular lists.nodup_keys
  rcases hgathered with ⟨hnone, -⟩ | ⟨-, -, -, spec, hspec, -⟩
  · exact hnone
  · exact absurd (modify_mem_commandMethods declaration)
      (not_mem_commandMethods_of_routed regular hspec)

theorem get?_phaseTable_modify (identity : Identity) (lists : Dict (List Scalar)) :
    (phaseTable declaration identity adding lists).get? declaration.methods.modify =
      match assignments declaration lists with
      | [] => none
      | texts => some (assignCall declaration (declaration.positional identity) adding texts) := by
  unfold phaseTable
  cases assignments declaration lists with
  | nil => exact get?_routedCalls_modify regular _ lists
  | cons text texts =>
    simp only [Dict.get?_insert_self, get?_routedCalls_modify regular, Option.getD_none]
    rfl

omit regular in
theorem get?_phaseTable_of_ne (identity : Identity) (lists : Dict (List Scalar))
    (h : method ≠ declaration.methods.modify) :
    (phaseTable declaration identity adding lists).get? method =
      (routedCalls declaration (declaration.positional identity) adding lists).get? method := by
  unfold phaseTable
  split
  next => rfl
  next => exact (Dict.get?_insert _ _ _ _).trans (if_neg h.symm)

theorem phaseTable_congr (identity : Identity) {lists lists' : Dict (List Scalar)}
    (h : ∀ name, belongs declaration adding method name → lists.get? name = lists'.get? name) :
    (phaseTable declaration identity adding lists).get? method =
      (phaseTable declaration identity adding lists').get? method := by
  by_cases hmethod : method = declaration.methods.modify
  · subst hmethod
    rw [get?_phaseTable_modify regular, get?_phaseTable_modify regular, assignments_congr h]
  · rw [get?_phaseTable_of_ne identity lists hmethod, get?_phaseTable_of_ne identity lists' hmethod]
    exact routedCalls_congr _ h

omit regular in
theorem phaseTable_empty (identity : Identity) :
    phaseTable declaration identity adding ∅ = ∅ := rfl

theorem phaseTable_eq_none (identity : Identity) {lists : Dict (List Scalar)}
    (h : ∀ name, belongs declaration adding method name → lists.get? name = none) :
    (phaseTable declaration identity adding lists).get? method = none := by
  calc (phaseTable declaration identity adding lists).get? method
    _ = (phaseTable declaration identity adding ∅).get? method :=
      phaseTable_congr regular identity h
    _ = none := Dict.get?_empty method

/-- Without the values of the first call the other calls of a phase are left. -/
theorem phaseCalls_tail (identity : Identity) {lists lists' : Dict (List Scalar)}
    {entry : String × RemoteCall} {rest : List (String × RemoteCall)}
    (h : (phaseTable declaration identity adding lists).entries = entry :: rest)
    (hlists : ∀ name, lists'.get? name =
      if belongs declaration adding entry.1 name then none else lists.get? name) :
    phaseCalls declaration identity adding lists' = rest.map (·.2) := by
  have herase : phaseTable declaration identity adding lists' =
      (phaseTable declaration identity adding lists).erase entry.1 := by
    apply Dict.ext
    intro method
    rw [Dict.get?_erase]
    split
    next heq =>
      subst heq
      exact phaseTable_eq_none regular identity fun name hname ↦ by rw [hlists, if_pos hname]
    next hne =>
      apply phaseTable_congr regular identity
      intro name hname
      rw [hlists, if_neg]
      intro hother
      obtain ⟨spec, hspec, hmethod⟩ := (Option.any_eq_true _ _).1 hname
      obtain ⟨spec', hspec', hmethod'⟩ := (Option.any_eq_true _ _).1 hother
      cases hspec.symm.trans hspec'
      rw [decide_eq_true_eq] at hmethod hmethod'
      exact hne (hmethod'.symm.trans hmethod)
  rw [phaseCalls_eq, herase, Dict.values_erase_head h]

end Ensure

end DirectoryReconcile
