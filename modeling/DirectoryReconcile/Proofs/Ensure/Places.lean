import DirectoryReconcile.Proofs.Directory.Sound
import DirectoryReconcile.Proofs.Ensure.Leading
import DirectoryReconcile.Proofs.Ensure.Phases
import Mathlib.Data.List.Pairwise

/-!
# Places of list values

The call that a method gets in a phase, in one equation: what its routes put into it in the order of
the attributes, and then the assignments if it is the method that changes objects. Every list
attribute has one place in one call, where its values can be read back.
-/

namespace DirectoryReconcile

namespace Ensure

open Declaration

/-! ## Calls by method -/

section

variable (declaration : Declaration) (adding : Bool)

/-- What a route of this style puts into the call of this method, with its parameter. -/
def routedValues (style : RouteStyle) (method : String) (entry : String × List Scalar) :
    Option (String × Json) := do
  let spec ← declaration.attribute? entry.1
  let route ← spec.route
  if route.style = style ∧ route.method adding = method then
    some (route.param, spec.encode (.list entry.2))
  else none

/-- What all routes of one style put into the call of a method. -/
def routedTo (style : RouteStyle) (method : String) (entries : List (String × List Scalar)) :
    List (String × Json) :=
  entries.filterMap (routedValues declaration adding style method)

/-- A call with the values among these entries at the places of their routes. -/
def withRouted (method : String) (entries : List (String × List Scalar)) (call : RemoteCall) :
    RemoteCall :=
  { call with
    positional :=
      call.positional ++ (routedTo declaration adding .positional method entries).map (·.2)
    item := call.item.insertMany (routedTo declaration adding .keyword method entries) }

/-- Whether an attribute has a route to a method. -/
def routesTo (method name : String) : Bool :=
  (declaration.attribute? name).any fun spec ↦
    spec.route.any fun route ↦ route.method adding = method

/-- The option that holds assignments. -/
def assignOption : String := if adding then "addattr" else "delattr"

/-- The options that assignments put into the call that changes objects. -/
def assigns (method : String) (texts : List String) : List (String × Json) :=
  if method = declaration.methods.modify ∧ texts ≠ [] then
    [(assignOption adding, Json.ofStrings texts), ("all", .bool true)]
  else []

/-- The call that a method gets in a phase, if it gets one. -/
def methodCall (positional : List Json) (lists : Dict (List Scalar)) (method : String) :
    RemoteCall where
  method := method
  positional := positional ++ (routedTo declaration adding .positional method lists.entries).map (·.2)
  item := .ofList (routedTo declaration adding .keyword method lists.entries ++
    assigns declaration adding method (assignments declaration lists))

end

variable {declaration : Declaration} {adding : Bool} {positional : List Json} {method : String}
  {identity : Identity} {lists : Dict (List Scalar)} {call : RemoteCall}

theorem getD_addRouted (calls : Dict RemoteCall) (entry : String × List Scalar) :
    ((addRouted declaration positional adding calls entry).get? method).getD
        (.plain method positional) =
      withRouted declaration adding method [entry] ((calls.get? method).getD (.plain method positional)) := by
  cases hattribute : declaration.attribute? entry.1 with
  | none => simp [addRouted, withRouted, routedTo, routedValues, hattribute, Dict.insertMany]
  | some spec =>
    cases hroute : spec.route with
    | none => simp [addRouted, withRouted, routedTo, routedValues, hattribute, hroute, Dict.insertMany]
    | some route =>
      simp only [addRouted, hattribute, hroute, Dict.get?_insert]
      by_cases hmethod : route.method adding = method
      · subst hmethod
        cases hstyle : route.style <;>
          simp [withRouted, routedTo, routedValues, place, hattribute, hroute, hstyle, Dict.insertMany]
      · simp [withRouted, routedTo, routedValues, hattribute, hroute, hmethod, Dict.insertMany]

theorem isSome_addRouted (calls : Dict RemoteCall) (entry : String × List Scalar) :
    ((addRouted declaration positional adding calls entry).get? method).isSome =
      ((calls.get? method).isSome || routesTo declaration adding method entry.1) := by
  cases hattribute : declaration.attribute? entry.1 with
  | none => simp [addRouted, routesTo, hattribute]
  | some spec =>
    cases hroute : spec.route with
    | none => simp [addRouted, routesTo, hattribute, hroute]
    | some route =>
      simp only [addRouted, hattribute, hroute, Dict.get?_insert]
      by_cases hmethod : route.method adding = method <;>
        simp [routesTo, hattribute, hroute, hmethod]

theorem withRouted_cons (entry : String × List Scalar) (rest : List (String × List Scalar))
    (call : RemoteCall) : withRouted declaration adding method (entry :: rest) call =
      withRouted declaration adding method rest (withRouted declaration adding method [entry] call) := by
  have hcons (style : RouteStyle) : routedTo declaration adding style method (entry :: rest) =
      routedTo declaration adding style method [entry] ++
        routedTo declaration adding style method rest :=
    List.filterMap_append (l := [entry])
  simp only [withRouted, hcons, List.map_append, List.append_assoc, Dict.insertMany, List.foldl_append]

theorem getD_foldl_addRouted (entries : List (String × List Scalar)) (calls : Dict RemoteCall) :
    ((entries.foldl (addRouted declaration positional adding) calls).get? method).getD
        (.plain method positional) =
      withRouted declaration adding method entries ((calls.get? method).getD (.plain method positional)) := by
  induction entries generalizing calls with
  | nil => simp [withRouted, routedTo, Dict.insertMany]
  | cons entry rest ih =>
    rw [List.foldl_cons, ih, getD_addRouted, ← withRouted_cons]

theorem isSome_foldl_addRouted (entries : List (String × List Scalar)) (calls : Dict RemoteCall) :
    ((entries.foldl (addRouted declaration positional adding) calls).get? method).isSome =
      ((calls.get? method).isSome ||
        entries.any fun entry ↦ routesTo declaration adding method entry.1) := by
  induction entries generalizing calls with
  | nil => simp
  | cons entry rest ih => rw [List.foldl_cons, ih, isSome_addRouted, List.any_cons, Bool.or_assoc]

/-- Whether a method gets a call in a phase. -/
def Occupied (declaration : Declaration) (adding : Bool) (lists : Dict (List Scalar))
    (method : String) : Prop :=
  (∃ name, lists.contains name = true ∧ routesTo declaration adding method name = true) ∨
    method = declaration.methods.modify ∧ assignments declaration lists ≠ []

theorem getD_routedCalls (method : String) :
    ((routedCalls declaration positional adding lists).get? method).getD
        (.plain method positional) =
      withRouted declaration adding method lists.entries (.plain method positional) := by
  rw [routedCalls, getD_foldl_addRouted, Dict.get?_empty, Option.getD_none]

theorem isSome_routedCalls_iff (positional : List Json) :
    ((routedCalls declaration positional adding lists).get? method).isSome ↔
    ∃ name, lists.contains name = true ∧ routesTo declaration adding method name = true := by
  rw [routedCalls, isSome_foldl_addRouted, Dict.get?_empty, Option.isSome_none, Bool.false_or,
    List.any_eq_true]
  constructor
  · rintro ⟨entry, hentry, hroutes⟩
    exact ⟨entry.1, (Dict.contains_iff _ _).2 (List.mem_map_of_mem hentry), hroutes⟩
  · rintro ⟨name, hname, hroutes⟩
    obtain ⟨entry, hentry, rfl⟩ := List.mem_map.1 ((Dict.contains_iff _ _).1 hname)
    exact ⟨entry, hentry, hroutes⟩

theorem methodCall_eq (positional : List Json) (lists : Dict (List Scalar)) (method : String) :
    methodCall declaration adding positional lists method =
      let call := withRouted declaration adding method lists.entries (.plain method positional)
      { call with
        item := call.item.insertMany
          (assigns declaration adding method (assignments declaration lists)) } := by
  simp only [methodCall, withRouted, RemoteCall.plain, Dict.ofList, Dict.insertMany, List.foldl_append]

theorem get?_routedCalls_eq_some_iff :
    (routedCalls declaration positional adding lists).get? method = some call ↔
      (∃ name, lists.contains name = true ∧ routesTo declaration adding method name = true) ∧
        call = withRouted declaration adding method lists.entries (.plain method positional) := by
  rw [← isSome_routedCalls_iff positional, ← getD_routedCalls]
  cases (routedCalls declaration positional adding lists).get? method <;> simp [eq_comm]

theorem get?_phaseTable_eq_some_iff : (phaseTable declaration identity adding lists).get? method =
    some call ↔ Occupied declaration adding lists method ∧
      call = methodCall declaration adding (declaration.positional identity) lists method := by
  rw [methodCall_eq, phaseTable, Occupied]
  cases htexts : assignments declaration lists with
  | nil => simp [get?_routedCalls_eq_some_iff, assigns, Dict.insertMany]
  | cons text texts =>
    simp only [Dict.get?_insert, getD_routedCalls]
    by_cases hmethod : method = declaration.methods.modify
    · subst hmethod
      have hassigns : assigns declaration adding declaration.methods.modify (text :: texts) =
          [(assignOption adding, Json.ofStrings (text :: texts)), ("all", .bool true)] :=
        if_pos ⟨rfl, List.cons_ne_nil _ _⟩
      rw [if_pos rfl, hassigns]
      exact ⟨fun h ↦ ⟨.inr ⟨rfl, List.cons_ne_nil _ _⟩, (Option.some.inj h).symm⟩,
        fun h ↦ congrArg some h.2.symm⟩
    · rw [if_neg (Ne.symm hmethod), get?_routedCalls_eq_some_iff]
      simp [assigns, hmethod, Dict.insertMany]

/-- A phase has one call for each method that gets one, and no other calls. -/
theorem mem_phaseCalls_iff : call ∈ phaseCalls declaration identity adding lists ↔
    Occupied declaration adding lists call.method ∧
      call = methodCall declaration adding (declaration.positional identity) lists call.method := by
  rw [phaseCalls_eq, Dict.mem_values_iff]
  constructor
  · rintro ⟨method, h⟩
    obtain ⟨hoccupied, rfl⟩ := get?_phaseTable_eq_some_iff.1 h
    exact ⟨hoccupied, rfl⟩
  · rintro ⟨hoccupied, h⟩
    exact ⟨call.method, get?_phaseTable_eq_some_iff.2 ⟨hoccupied, h⟩⟩

/-! ## Reading values back -/

/-- The elements of an array, none of anything else. -/
def elementsOf : Option Json → List Json
  | some (.arr values) => values
  | _ => []

/-- What an assignment to a key assigns. -/
def assignedTo (key : String) : Json → Option Json
  | .str text =>
    match Text.splitFirst '=' text with
    | some (name, value) => if name = key then some (.str value) else none
    | none => none
  | _ => none

theorem assignedTo_assignment {spec : AttributeSpec} (hkey : '=' ∉ spec.responseKey.toList)
    (key : String) (value : Scalar) : assignedTo key (.str (assignment spec value)) =
      if spec.responseKey = key then some (.str value.display) else none := by
  simp only [assignedTo, assignment, Operation.splitFirst_assignment hkey]

/-- What a call has at the place of a route: in the option that it names, or in the one argument after
the identity. -/
def routedAt (leading : Nat) (route : ListRoute) (call : RemoteCall) : List Json :=
  match route.style with
  | .keyword => elementsOf (call.item.get? route.param)
  | .positional =>
    match call.positional.drop leading with
    | [values] => elementsOf (some values)
    | _ => []

/-- What a call has at the place of an attribute: at the place of its route, or in the assignments to
its key. -/
def valuesAt (declaration : Declaration) (adding : Bool) (leading : Nat) (spec : AttributeSpec)
    (call : RemoteCall) : List Json :=
  if call.method = listMethod declaration adding spec then
    match spec.route with
    | some route => routedAt leading route call
    | none =>
      (elementsOf (call.item.get? (assignOption adding))).filterMap (assignedTo spec.responseKey)
  else []

/-- A value as it stands at the place of an attribute. -/
def written (spec : AttributeSpec) (value : Scalar) : Json :=
  if spec.route.isSome then spec.encoding.encode value else .str value.display

/-- Whether assignments take the place of a route. -/
def isOverwritten (declaration : Declaration) (adding : Bool) (route : ListRoute) : Bool :=
  route.style = .keyword && route.method adding = declaration.methods.modify &&
    (route.param = assignOption adding || route.param = "all")

/-- Whether two attributes have one place in the calls of a phase, or the assignments of one take the
place of the other. -/
def sharesPlace (declaration : Declaration) (adding : Bool) (first second : AttributeSpec) : Bool :=
  match first.route, second.route with
  | some r, some s => r.style = .keyword && s.style = .keyword &&
      r.method adding = s.method adding && r.param = s.param
  | some r, none => isOverwritten declaration adding r
  | none, some s => isOverwritten declaration adding s
  | none, none => first.responseKey = second.responseKey

/-- The attributes with these names have places of their own in the calls of a phase. -/
def ToldApart (declaration : Declaration) (adding : Bool) (names : List String) : Prop :=
  ∀ first ∈ declaration.attributes, ∀ second ∈ declaration.attributes, first.name ∈ names →
    second.name ∈ names → first.name ≠ second.name →
      sharesPlace declaration adding first second = false

instance (declaration : Declaration) (adding : Bool) (names : List String) :
    Decidable (ToldApart declaration adding names) := by
  unfold ToldApart
  infer_instance

theorem assignOption_ne_all : assignOption adding ≠ "all" := by
  cases adding <;> decide

theorem routedValues_eq_some_iff (hnames : (declaration.attributes.map (·.name)).Nodup)
    {style : RouteStyle} {entry : String × List Scalar} {pair : String × Json} :
    routedValues declaration adding style method entry = some pair ↔
      ∃ spec ∈ declaration.attributes, spec.name = entry.1 ∧ ∃ route, spec.route = some route ∧
        route.style = style ∧ route.method adding = method ∧
          (route.param, spec.encode (.list entry.2)) = pair := by
  constructor
  · intro h
    obtain ⟨spec, hattribute, h⟩ := Option.bind_eq_some_iff.1 h
    obtain ⟨route, hroute, h⟩ := Option.bind_eq_some_iff.1 h
    obtain ⟨hspec, hname⟩ := (named?_eq_some_iff hnames).1 hattribute
    split at h
    next hplace =>
      exact ⟨spec, hspec, hname, route, hroute, hplace.1, hplace.2, Option.some.inj h⟩
    next => simp at h
  · rintro ⟨spec, hspec, hname, route, hroute, hstyle, hmethod, rfl⟩
    have hattribute : declaration.attribute? entry.1 = some spec :=
      (named?_eq_some_iff hnames).2 ⟨hspec, hname⟩
    simp [routedValues, hattribute, hroute, hstyle, hmethod]

theorem mem_routedTo (hnames : (declaration.attributes.map (·.name)).Nodup) {style : RouteStyle}
    {pair : String × Json} : pair ∈ routedTo declaration adding style method lists.entries ↔
      ∃ spec ∈ declaration.attributes, ∃ route, spec.route = some route ∧ route.style = style ∧
        route.method adding = method ∧ ∃ values, lists.get? spec.name = some values ∧
          (route.param, spec.encode (.list values)) = pair := by
  unfold routedTo
  rw [List.mem_filterMap]
  constructor
  · rintro ⟨⟨_, values⟩, hentry, h⟩
    obtain ⟨spec, hspec, rfl, route, hroute, hstyle, hmethod, hpair⟩ :=
      (routedValues_eq_some_iff hnames).1 h
    exact ⟨spec, hspec, route, hroute, hstyle, hmethod, values, lists.mem_entries_iff.1 hentry, hpair⟩
  · rintro ⟨spec, hspec, route, hroute, hstyle, hmethod, values, hvalues, hpair⟩
    exact ⟨(spec.name, values), lists.mem_entries_iff.2 hvalues, (routedValues_eq_some_iff hnames).2
      ⟨spec, hspec, rfl, route, hroute, hstyle, hmethod, hpair⟩⟩

theorem mem_assigns {texts : List String} {pair : String × Json}
    (h : pair ∈ assigns declaration adding method texts) : method = declaration.methods.modify ∧
      texts ≠ [] ∧ (pair.1 = assignOption adding ∨ pair.1 = "all") := by
  unfold assigns at h
  split at h
  next hneeded =>
    refine ⟨hneeded.1, hneeded.2, ?_⟩
    simp only [List.mem_cons, List.not_mem_nil, or_false] at h
    exact h.imp (congrArg Prod.fst) (congrArg Prod.fst)
  next => simp at h

/-- The options of assignments are what the call that changes objects holds under their names. -/
theorem get?_methodCall_of_assigned (htexts : assignments declaration lists ≠ []) {key : String}
    {value : Json} (h : (key, value) ∈ [(assignOption adding,
      Json.ofStrings (assignments declaration lists)), ("all", .bool true)]) :
    (methodCall declaration adding positional lists declaration.methods.modify).item.get? key =
      some value := by
  have hassigns : assigns declaration adding declaration.methods.modify
      (assignments declaration lists) = [(assignOption adding,
        Json.ofStrings (assignments declaration lists)), ("all", .bool true)] :=
    if_pos ⟨rfl, htexts⟩
  rw [methodCall_eq, hassigns]
  exact Dict.get?_insertMany_of_mem _ (by simp [assignOption_ne_all]) h

/-- Entries that only one key lets pass are the value of this key. -/
theorem filterMap_of_key {α β : Type} {f : String × α → Option β} (key : String)
    {entries : List (String × α)} (hnodup : (entries.map (·.1)).Nodup)
    (h : ∀ entry ∈ entries, (f entry).isSome → entry.1 = key) :
    entries.filterMap f = ((Dict.lookupEntry key entries).bind fun value ↦ f (key, value)).toList := by
  induction entries with
  | nil => rfl
  | cons entry rest ih =>
    obtain ⟨hhead, hrest⟩ := List.forall_mem_cons.1 h
    obtain ⟨hnew, hnodup⟩ := List.nodup_cons.1 hnodup
    have ih := ih hnodup hrest
    obtain ⟨name, value⟩ := entry
    unfold Dict.lookupEntry
    split
    next heq =>
      subst heq
      rw [lookupEntry_eq_none_of_not_mem hnew] at ih
      rw [List.filterMap_cons, ih, Option.bind_some]
      cases f (name, value) <;> rfl
    next hne =>
      have hnone : f (name, value) = none := by
        by_contra hsome
        exact hne (hhead (Option.isSome_iff_ne_none.2 hsome))
      rw [List.filterMap_cons_none hnone, ih]

/-! ## Accepted declarations -/

theorem method_mem_positionalNames {spec : AttributeSpec} {route : ListRoute}
    (hroute : spec.route = some route) (hstyle : route.style = .positional) (adding : Bool) :
    route.method adding ∈ spec.positionalNames := by
  cases adding <;> simp [AttributeSpec.positionalNames, hroute, hstyle, ListRoute.method]

/-- No two attributes of an accepted declaration have positional routes to one method. -/
theorem positional_apart (schema : ObjectSchema) {first second : AttributeSpec}
    (hfirst : first ∈ schema.attributes) (hsecond : second ∈ schema.attributes) (hne : first ≠ second)
    {r s : ListRoute} (hr : first.route = some r) (hs : second.route = some s)
    (hrstyle : r.style = .positional) (hsstyle : s.style = .positional) :
    r.method adding ≠ s.method adding := by
  have hnodup := schema.wellFormed.positional_nodup
  rw [List.nodup_flatMap] at hnodup
  have : Std.Symm (Function.onFun List.Disjoint AttributeSpec.positionalNames) :=
    ⟨fun _ _ h _ ha hb ↦ h hb ha⟩
  intro heq
  exact hnodup.2.forall hfirst hsecond hne (method_mem_positionalNames hr hrstyle adding)
    (heq ▸ method_mem_positionalNames hs hsstyle adding)

/-! ## Places that are told apart -/

section

variable (schema : ObjectSchema) {names : List String} {spec : AttributeSpec} {route : ListRoute}
  (happart : ToldApart schema.toDeclaration adding names)
  (hlists : ∀ name, lists.contains name = true → name ∈ names)
  (hspec : spec ∈ schema.attributes) (hname : spec.name ∈ names)

include happart hlists hspec hname

theorem eq_of_sharesPlace {other : AttributeSpec} (hother : other ∈ schema.attributes)
    {values : List Scalar} (hvalues : lists.get? other.name = some values)
    (hshares : sharesPlace schema.toDeclaration adding other spec = true) : other = spec := by
  by_contra hne
  have hnames : other.name ≠ spec.name := fun heq ↦
    hne (List.inj_on_of_nodup_map schema.names_nodup hother hspec heq)
  have hlisted : other.name ∈ names :=
    hlists other.name (by rw [Dict.contains, hvalues]; rfl)
  rw [happart other hother spec hspec hlisted hname hnames] at hshares
  simp at hshares

/-- Assignments do not take the place of a route. -/
theorem not_mem_assigns (hroute : spec.route = some route) (hstyle : route.style = .keyword)
    (value : Json) : (route.param, value) ∉ assigns schema.toDeclaration adding
      (route.method adding) (assignments schema.toDeclaration lists) := by
  intro h
  obtain ⟨hmethod, htexts, hparam⟩ := mem_assigns h
  obtain ⟨text, htext⟩ := List.exists_mem_of_ne_nil _ htexts
  obtain ⟨name, values, other, hvalues, hattribute, hunrouted, -⟩ := mem_assignments.1 htext
  obtain ⟨hother, rfl⟩ := (named?_eq_some_iff schema.names_nodup).1 hattribute
  obtain rfl := eq_of_sharesPlace schema happart hlists hspec hname hother hvalues
    (by simpa [sharesPlace, hunrouted, hroute, isOverwritten, hstyle, hmethod] using hparam)
  simp [hroute] at hunrouted

/-- The option of a keyword route holds the values of its attribute. -/
theorem get?_methodCall_item (hroute : spec.route = some route) (hstyle : route.style = .keyword) :
    (methodCall schema.toDeclaration adding positional lists (route.method adding)).item.get?
      route.param = (lists.get? spec.name).map fun values ↦ spec.encode (.list values) := by
  -- Nothing but the values of the attribute is put there.
  have hown {value : Json} (hvalue : (route.param, value) ∈
      routedTo schema.toDeclaration adding .keyword (route.method adding) lists.entries ++
        assigns schema.toDeclaration adding (route.method adding)
          (assignments schema.toDeclaration lists)) :
      (lists.get? spec.name).map (fun values ↦ spec.encode (.list values)) = some value := by
    rcases List.mem_append.1 hvalue with hrouted | hassigned
    · obtain ⟨other, hother, r, hr, hkeyword, hmethod, values, hvalues, hpair⟩ :=
        (mem_routedTo schema.names_nodup).1 hrouted
      obtain ⟨hparam, rfl⟩ := Prod.mk.inj hpair
      obtain rfl := eq_of_sharesPlace schema happart hlists hspec hname hother hvalues
        (by simp [sharesPlace, hr, hroute, hkeyword, hstyle, hmethod, hparam])
      rw [hvalues]
      rfl
    · exact absurd hassigned
        (not_mem_assigns schema happart hlists hspec hname hroute hstyle value)
  unfold methodCall Dict.ofList
  rcases (∅ : Dict Json).get?_insertMany_cases (routedTo schema.toDeclaration adding .keyword
    (route.method adding) lists.entries ++ assigns schema.toDeclaration adding (route.method adding)
      (assignments schema.toDeclaration lists)) route.param with ⟨value, hmem, hget⟩ | ⟨hnone, hget⟩
  · rw [hget, hown hmem]
  · rw [hget, Dict.get?_empty]
    cases hvalues : lists.get? spec.name with
    | none => rfl
    | some values =>
      exact absurd (List.mem_map_of_mem (List.mem_append_left _ ((mem_routedTo schema.names_nodup).2
        ⟨spec, hspec, route, hroute, hstyle, rfl, values, hvalues, rfl⟩))) hnone

omit happart hlists hname in
/-- The argument after the identity of a positional route holds the values of its attribute. -/
theorem methodCall_positional (hroute : spec.route = some route)
    (hstyle : route.style = .positional) :
    (methodCall schema.toDeclaration adding positional lists (route.method adding)).positional =
      positional ++ ((lists.get? spec.name).map fun values ↦ spec.encode (.list values)).toList := by
  have hattribute : schema.attribute? spec.name = some spec :=
    (named?_eq_some_iff schema.names_nodup).2 ⟨hspec, rfl⟩
  have hown : ∀ entry ∈ lists.entries, (routedValues schema.toDeclaration adding .positional
      (route.method adding) entry).isSome → entry.1 = spec.name := by
    intro entry _ hsome
    obtain ⟨pair, hpair⟩ := Option.isSome_iff_exists.1 hsome
    obtain ⟨other, hother, hname, r, hr, hrstyle, hmethod, -⟩ :=
      (routedValues_eq_some_iff schema.names_nodup).1 hpair
    by_contra hne
    refine positional_apart schema hother hspec ?_ hr hroute hrstyle hstyle hmethod
    rintro rfl
    exact hne hname.symm
  simp only [methodCall, routedTo]
  rw [filterMap_of_key spec.name lists.nodup_keys hown]
  unfold Dict.get?
  cases Dict.lookupEntry spec.name lists.entries <;>
    simp [routedValues, hattribute, hroute, hstyle]

theorem routedAt_methodCall (hroute : spec.route = some route) :
    routedAt positional.length route (methodCall schema.toDeclaration adding positional lists
      (route.method adding)) = ((lists.get? spec.name).getD []).map spec.encoding.encode := by
  unfold routedAt
  cases hstyle : route.style with
  | keyword =>
    simp only
    rw [get?_methodCall_item schema happart hlists hspec hname hroute hstyle]
    cases lists.get? spec.name <;> rfl
  | positional =>
    simp only
    rw [methodCall_positional schema hspec hroute hstyle, List.drop_left]
    cases lists.get? spec.name <;> rfl

/-- A list without a route finds the assignments where it looks for them. -/
theorem elementsOf_methodCall (hroute : spec.route = none) :
    elementsOf ((methodCall schema.toDeclaration adding positional lists
      schema.methods.modify).item.get? (assignOption adding)) =
        (assignments schema.toDeclaration lists).map .str := by
  by_cases htexts : assignments schema.toDeclaration lists = []
  · simp only [methodCall, Dict.ofList]
    have hassigns : assigns schema.toDeclaration adding schema.methods.modify
        (assignments schema.toDeclaration lists) = [] := if_neg fun h ↦ h.2 htexts
    rw [hassigns, List.append_nil, htexts]
    rcases (∅ : Dict Json).get?_insertMany_cases (routedTo schema.toDeclaration adding .keyword
      schema.methods.modify lists.entries) (assignOption adding) with ⟨value, hmem, -⟩ | ⟨-, hget⟩
    · obtain ⟨other, hother, r, hr, hkeyword, hmethod, values, hvalues, hpair⟩ :=
        (mem_routedTo schema.names_nodup).1 hmem
      obtain rfl := eq_of_sharesPlace schema happart hlists hspec hname hother hvalues
        (by simp [sharesPlace, hr, hroute, isOverwritten, hkeyword, hmethod, (Prod.mk.inj hpair).1])
      simp [hroute] at hr
    · rw [hget]
      rfl
  · rw [get?_methodCall_of_assigned htexts List.mem_cons_self]
    rfl

/-- At the place of an attribute its method finds the values of the attribute, and nothing else. -/
theorem mem_valuesAt_methodCall (hkeys : ∀ spec ∈ schema.attributes, '=' ∉ spec.responseKey.toList)
    {entry : Json} : entry ∈ valuesAt schema.toDeclaration adding positional.length spec
        (methodCall schema.toDeclaration adding positional lists
          (listMethod schema.toDeclaration adding spec)) ↔
      ∃ values, lists.get? spec.name = some values ∧ ∃ v ∈ values, written spec v = entry := by
  have hplace : (methodCall schema.toDeclaration adding positional lists
      (listMethod schema.toDeclaration adding spec)).method =
        listMethod schema.toDeclaration adding spec := rfl
  rw [valuesAt, if_pos hplace]
  cases hroute : spec.route with
  | some route =>
    have hmethod : listMethod schema.toDeclaration adding spec = route.method adding := by
      simp [listMethod, hroute]
    simp only
    rw [hmethod, routedAt_methodCall schema happart hlists hspec hname hroute]
    simp only [written, hroute]
    cases lists.get? spec.name <;> simp
  | none =>
    have hmethod : listMethod schema.toDeclaration adding spec = schema.methods.modify := by
      simp [listMethod, hroute]
    rw [hmethod]
    simp only
    rw [elementsOf_methodCall schema happart hlists hspec hname hroute]
    simp only [List.mem_filterMap, List.mem_map, written, hroute]
    constructor
    · rintro ⟨_, ⟨text, htext, rfl⟩, hassigned⟩
      obtain ⟨name, values, other, hvalues, hattribute, hunrouted, v, hv, rfl⟩ :=
        mem_assignments.1 htext
      obtain ⟨hother, rfl⟩ := (named?_eq_some_iff schema.names_nodup).1 hattribute
      rw [assignedTo_assignment (hkeys other hother)] at hassigned
      split at hassigned
      next hkey =>
        obtain rfl := eq_of_sharesPlace schema happart hlists hspec hname hother hvalues
          (by simp [sharesPlace, hunrouted, hroute, hkey])
        exact ⟨values, hvalues, v, hv, by simpa using hassigned⟩
      next => simp at hassigned
    · rintro ⟨values, hvalues, v, hv, rfl⟩
      have hattribute : schema.attribute? spec.name = some spec :=
        (named?_eq_some_iff schema.names_nodup).2 ⟨hspec, rfl⟩
      refine ⟨.str (assignment spec v), ⟨assignment spec v, mem_assignments.2
        ⟨spec.name, values, spec, hvalues, hattribute, hroute, v, hv, rfl⟩, rfl⟩, ?_⟩
      rw [assignedTo_assignment (hkeys spec hspec)]
      simp

end

end Ensure

end DirectoryReconcile
