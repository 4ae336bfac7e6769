import DirectoryReconcile.Proofs.Ensure.Places

/-!
# Recovery of list values from calls

The calls of a phase carry every value of the lists that are to change, each at the place of its
attribute, and the lists can be read back from them, exactly if the attributes have places of their
own. An accepted declaration need not see to that.
-/

namespace DirectoryReconcile

/-- A value that this kind reads. -/
def ValueKind.Holds : ValueKind → Scalar → Prop
  | .str, .str _ | .int, .int _ | .bool, .bool _ => True
  | _, _ => False

theorem toString_int_inj {m n : Int} (h : toString m = toString n) : m = n := by
  have hnat {a b : Nat} (h : Nat.toDigits 10 a = Nat.toDigits 10 b) : a = b := by
    rw [← Nat.ofDigitChars_ten_toDigits (n := a), h, Nat.ofDigitChars_ten_toDigits]
  have hsign (a b : Nat) : '-' :: Nat.toDigits 10 a ≠ Nat.toDigits 10 b := fun h ↦ by
    simpa using Nat.isDigit_of_mem_toDigits (by decide) (by decide)
      (h ▸ List.mem_cons_self : '-' ∈ Nat.toDigits 10 b)
  rw [Int.toString_eq_repr, Int.toString_eq_repr, Int.repr_eq_if, Int.repr_eq_if] at h
  have hlist := congrArg String.toList h
  split at hlist <;> split at hlist <;>
    simp only [String.toList_append, Nat.toList_repr] at hlist
  · have := hnat hlist
    omega
  · exact absurd hlist.symm (hsign _ _)
  · exact absurd hlist (hsign _ _)
  · have := hnat (List.append_cancel_left hlist)
    omega

theorem ValueKind.Holds.display_inj {kind : ValueKind} {v w : Scalar} (hv : kind.Holds v)
    (hw : kind.Holds w) (h : v.display = w.display) : v = w := by
  cases kind <;> cases v <;> simp only [ValueKind.Holds] at hv <;>
    cases w <;> simp only [ValueKind.Holds] at hw
  case str.str.str s t => exact congrArg _ h
  case int.int.int n m => exact congrArg _ (Int64.toInt_inj.1 (toString_int_inj h))
  case bool.bool.bool a b =>
    revert h
    cases a <;> cases b <;> simp [Scalar.display]

theorem Encoding.encode_eq_null_iff (encoding : Encoding) {value : Scalar} :
    encoding.encode value = .null ↔ value = .null := by
  cases value with
  | null => simp [Encoding.encode, Scalar.isNull]
  | bool | int | str =>
    cases encoding <;> simp [Encoding.encode, Encoding.wrap, Encoding.wrapper?, Scalar.isNull,
      Scalar.toJson]

theorem Encoding.encode_injective (encoding : Encoding) : Function.Injective encoding.encode := by
  intro v w h
  by_cases hv : v = .null
  · subst hv
    exact (encoding.encode_eq_null_iff.1 (h.symm.trans (encoding.encode_eq_null_iff.2 rfl))).symm
  by_cases hw : w = .null
  · subst hw
    exact encoding.encode_eq_null_iff.1 (h.trans (encoding.encode_eq_null_iff.2 rfl))
  have hwrap {u : Scalar} (hu : u ≠ .null) : encoding.encode u = encoding.wrap u.toJson :=
    if_neg (by cases u <;> simp_all [Scalar.isNull])
  rw [hwrap hv, hwrap hw] at h
  apply Scalar.toJson_injective
  cases encoding <;> simpa [Encoding.wrap, Encoding.wrapper?] using h

namespace Ensure

open Declaration

/-- Values of one kind are told apart as they are written. -/
theorem written_inj {spec : AttributeSpec} {v w : Scalar} (hv : spec.kind.Holds v)
    (hw : spec.kind.Holds w) (h : written spec v = written spec w) : v = w := by
  unfold written at h
  split at h
  · exact spec.encoding.encode_injective h
  · exact hv.display_inj hw (Json.str.inj h)

/-- The calls of a phase carry these lists of the attributes with these names. -/
structure CarriesLists (declaration : Declaration) (adding : Bool) (leading : Nat)
    (names : List String) (lists : Dict (List Scalar)) (calls : List RemoteCall) : Prop where
  /-- Every value is at the place of its attribute in exactly one call. -/
  once : ∀ spec ∈ declaration.attributes, spec.name ∈ names →
    ∀ values, lists.get? spec.name = some values → ∀ v ∈ values,
      ∃! call, call ∈ calls ∧ written spec v ∈ valuesAt declaration adding leading spec call
  /-- There is nothing else at these places. -/
  only : ∀ spec ∈ declaration.attributes, spec.name ∈ names →
    ∀ call ∈ calls, ∀ entry ∈ valuesAt declaration adding leading spec call,
      ∃ values, lists.get? spec.name = some values ∧ ∃ v ∈ values, written spec v = entry
  /-- A list of values of its kind can be read back. -/
  recovered : ∀ spec ∈ declaration.attributes, spec.name ∈ names →
    ∀ values, lists.get? spec.name = some values → (∀ v ∈ values, spec.kind.Holds v) →
      ∀ v, spec.kind.Holds v → (v ∈ values ↔
        ∃ call ∈ calls, written spec v ∈ valuesAt declaration adding leading spec call)

variable (schema : ObjectSchema) {adding : Bool} {names : List String} {identity : Identity}
  {lists : Dict (List Scalar)}

theorem method_of_mem_valuesAt {declaration : Declaration} {leading : Nat} {spec : AttributeSpec}
    {call : RemoteCall} {entry : Json} (h : entry ∈ valuesAt declaration adding leading spec call) :
    call.method = listMethod declaration adding spec := by
  by_contra hmethod
  rw [valuesAt, if_neg hmethod] at h
  simp at h

/-! ## Attributes that are told apart -/

/-- The method of a list attribute gets a call as soon as there is a value for it. -/
theorem occupied_of_mem {spec : AttributeSpec} (hspec : spec ∈ schema.attributes)
    {values : List Scalar} (hvalues : lists.get? spec.name = some values) {v : Scalar}
    (hv : v ∈ values) : Occupied schema.toDeclaration adding lists
      (listMethod schema.toDeclaration adding spec) := by
  have hattribute : schema.attribute? spec.name = some spec :=
    (named?_eq_some_iff schema.names_nodup).2 ⟨hspec, rfl⟩
  cases hroute : spec.route with
  | some route =>
    refine .inl ⟨spec.name, by rw [Dict.contains, hvalues]; rfl, ?_⟩
    simp [routesTo, hattribute, listMethod, hroute]
  | none =>
    refine .inr ⟨by simp [listMethod, hroute], List.ne_nil_of_mem (a := assignment spec v) ?_⟩
    exact mem_assignments.2 ⟨spec.name, values, spec, hvalues, hattribute, hroute, v, hv, rfl⟩

theorem carries_of_apart (hkeys : ∀ spec ∈ schema.attributes, '=' ∉ spec.responseKey.toList)
    (happart : ToldApart schema.toDeclaration adding names)
    (hlists : ∀ name, lists.contains name = true → name ∈ names) :
    CarriesLists schema.toDeclaration adding (schema.positional identity).length names lists
      (phaseCalls schema.toDeclaration identity adding lists) := by
  have honly : ∀ spec ∈ schema.attributes, spec.name ∈ names →
      ∀ call ∈ phaseCalls schema.toDeclaration identity adding lists,
        ∀ entry ∈ valuesAt schema.toDeclaration adding (schema.positional identity).length spec call,
          ∃ values, lists.get? spec.name = some values ∧ ∃ v ∈ values, written spec v = entry := by
    intro spec hspec hname call hcall entry hentry
    have hcalls := (mem_phaseCalls_iff.1 hcall).2
    rw [method_of_mem_valuesAt hentry] at hcalls
    rw [hcalls] at hentry
    exact (mem_valuesAt_methodCall schema happart hlists hspec hname hkeys).1 hentry
  have honce : ∀ spec ∈ schema.attributes, spec.name ∈ names →
      ∀ values, lists.get? spec.name = some values → ∀ v ∈ values,
        ∃! call, call ∈ phaseCalls schema.toDeclaration identity adding lists ∧ written spec v ∈
          valuesAt schema.toDeclaration adding (schema.positional identity).length spec call := by
    intro spec hspec hname values hvalues v hv
    refine ⟨methodCall schema.toDeclaration adding (schema.positional identity) lists
      (listMethod schema.toDeclaration adding spec), ⟨mem_phaseCalls_iff.2
        ⟨occupied_of_mem schema hspec hvalues hv, rfl⟩, ?_⟩, ?_⟩
    · exact (mem_valuesAt_methodCall schema happart hlists hspec hname hkeys).2
        ⟨values, hvalues, v, hv, rfl⟩
    · rintro call ⟨hcall, hentry⟩
      rw [← method_of_mem_valuesAt hentry]
      exact (mem_phaseCalls_iff.1 hcall).2
  refine ⟨honce, honly, fun spec hspec hname values hvalues hkind v hv ↦ ⟨fun hmem ↦ ?_, ?_⟩⟩
  · exact (honce spec hspec hname values hvalues v hmem).exists
  · rintro ⟨call, hcall, hentry⟩
    obtain ⟨other, hother, w, hw, hwritten⟩ := honly spec hspec hname call hcall _ hentry
    cases hvalues.symm.trans hother
    exact written_inj (hkind w hw) hv hwritten ▸ hw

/-! ## Attributes that are not -/

/-- Two attributes that read the same places cannot both have their own values there. -/
theorem CarriesLists.eq_of_valuesAt_eq {declaration : Declaration} {leading : Nat}
    {calls : List RemoteCall} (h : CarriesLists declaration adding leading names lists calls)
    {first second : AttributeSpec} (hfirst : first ∈ declaration.attributes)
    (hsecond : second ∈ declaration.attributes) (hfirstName : first.name ∈ names)
    (hsecondName : second.name ∈ names) {u v : Scalar}
    (hu : lists.get? first.name = some [u]) (hv : lists.get? second.name = some [v])
    (hsame : ∀ call, valuesAt declaration adding leading first call =
      valuesAt declaration adding leading second call) : written first u = written second v := by
  obtain ⟨call, hcall, hentry⟩ := (h.once second hsecond hsecondName [v] hv v (by simp)).exists
  rw [← hsame] at hentry
  obtain ⟨values, hvalues, w, hw, hwritten⟩ := h.only first hfirst hfirstName call hcall _ hentry
  cases hu.symm.trans hvalues
  rwa [← List.mem_singleton.1 hw]

theorem encode_bool_ne_str (encoding : Encoding) (b : Bool) (text : String) :
    encoding.encode (.bool b) ≠ .str text := by
  cases encoding <;> simp [Encoding.encode, Encoding.wrap, Encoding.wrapper?, Scalar.isNull,
    Scalar.toJson]

theorem encode_true_ne_encode_false (first second : Encoding) :
    first.encode (.bool true) ≠ second.encode (.bool false) := by
  cases first <;> cases second <;> simp [Encoding.encode, Encoding.wrap, Encoding.wrapper?,
    Scalar.isNull, Scalar.toJson]

theorem exists_str_of_assignedTo {key : String} {entry value : Json}
    (h : assignedTo key entry = some value) : ∃ text, entry = .str text := by
  cases entry <;> simp_all [assignedTo]

/-- Where assignments take the place of a route, its values are lost. -/
theorem CarriesLists.not_overwritten
    (h : CarriesLists schema.toDeclaration adding (schema.positional identity).length names lists
      (phaseCalls schema.toDeclaration identity adding lists))
    {first second : AttributeSpec} (hfirst : first ∈ schema.attributes)
    (hsecond : second ∈ schema.attributes) (hfirstName : first.name ∈ names)
    (hsecondName : second.name ∈ names) {a : Bool} {v : Scalar}
    (hu : lists.get? first.name = some [.bool a]) (hv : lists.get? second.name = some [v])
    {route : ListRoute} (hroute : first.route = some route) (hunrouted : second.route = none) :
    isOverwritten schema.toDeclaration adding route = false := by
  by_contra hover
  simp only [isOverwritten, Bool.not_eq_false, Bool.and_eq_true, Bool.or_eq_true,
    decide_eq_true_eq] at hover
  obtain ⟨⟨hstyle, hmodify⟩, hparam⟩ := hover
  have hfirstMethod : listMethod schema.toDeclaration adding first = schema.methods.modify := by
    simp [listMethod, hroute, hmodify]
  have hsecondMethod : listMethod schema.toDeclaration adding second = schema.methods.modify := by
    simp [listMethod, hunrouted]
  obtain ⟨call, hcall, hown⟩ :=
    (h.once first hfirst hfirstName [.bool a] hu (.bool a) (by simp)).exists
  obtain ⟨call', hcall', hassigned⟩ := (h.once second hsecond hsecondName [v] hv v (by simp)).exists
  -- The method that changes objects has one call, so both values are in the same.
  have hmethod := (method_of_mem_valuesAt hown).trans hfirstMethod
  have heq : call' = call := by
    rw [(mem_phaseCalls_iff.1 hcall').2, (mem_phaseCalls_iff.1 hcall).2, hmethod,
      (method_of_mem_valuesAt hassigned).trans hsecondMethod]
  subst heq
  have hplace : valuesAt schema.toDeclaration adding (schema.positional identity).length first
      call' = elementsOf (call'.item.get? route.param) := by
    simp only [valuesAt, hmethod, hfirstMethod, if_true, hroute, routedAt, hstyle]
  simp only [valuesAt, hmethod, hsecondMethod, if_true, hunrouted, List.mem_filterMap] at hassigned
  obtain ⟨entry, hentry, htext⟩ := hassigned
  rcases hparam with hparam | hparam
  · rw [← hparam, ← hplace] at hentry
    obtain ⟨values, hvalues, w, hw, rfl⟩ := h.only first hfirst hfirstName call' hcall _ hentry
    cases hu.symm.trans hvalues
    obtain ⟨text, hstr⟩ := exists_str_of_assignedTo htext
    rw [List.mem_singleton.1 hw, written, hroute, Option.isSome_some, if_pos rfl] at hstr
    exact encode_bool_ne_str _ _ _ hstr
  · have hattribute : schema.attribute? second.name = some second :=
      (named?_eq_some_iff schema.names_nodup).2 ⟨hsecond, rfl⟩
    have htexts : assignments schema.toDeclaration lists ≠ [] := List.ne_nil_of_mem
      (mem_assignments.2 ⟨second.name, [v], second, hv, hattribute, hunrouted, v, by simp, rfl⟩)
    have hall : call'.item.get? "all" = some (.bool true) := by
      rw [(mem_phaseCalls_iff.1 hcall).2, hmethod]
      exact get?_methodCall_of_assigned htexts (by simp)
    rw [hplace, hparam, hall] at hown
    simp [elementsOf] at hown

theorem apart_of_carries (h : ∀ (identity : Identity) (lists : Dict (List Scalar)),
    (∀ name, lists.contains name = true → name ∈ names) →
      CarriesLists schema.toDeclaration adding (schema.positional identity).length names lists
        (phaseCalls schema.toDeclaration identity adding lists)) :
    ToldApart schema.toDeclaration adding names := by
  intro first hfirst second hsecond hfirstName hsecondName hne
  have hnodup : ([(first.name, [Scalar.bool true]), (second.name, [Scalar.bool false])].map
      (·.1)).Nodup := by simpa using hne
  have hlists := h ∅ (.ofList [(first.name, [.bool true]), (second.name, [.bool false])])
    fun name hname ↦ by
      rw [Dict.contains, Dict.get?_ofList hnodup, Dict.lookupEntry_isSome_iff] at hname
      rcases List.mem_pair.1 hname with rfl | rfl
      · exact hfirstName
      · exact hsecondName
  have hu : (Dict.ofList [(first.name, [Scalar.bool true]), (second.name, [Scalar.bool false])]).get?
      first.name = some [.bool true] := by simp [Dict.get?_ofList hnodup, Dict.lookupEntry]
  have hv : (Dict.ofList [(first.name, [Scalar.bool true]), (second.name, [Scalar.bool false])]).get?
      second.name = some [.bool false] := by simp [Dict.get?_ofList hnodup, Dict.lookupEntry, hne]
  by_contra hshares
  rw [Bool.not_eq_false] at hshares
  unfold sharesPlace at hshares
  cases hr : first.route with
  | none =>
    cases hs : second.route with
    | none =>
      -- Both are assigned under one key.
      simp only [hr, hs, decide_eq_true_eq] at hshares
      have heq := hlists.eq_of_valuesAt_eq hfirst hsecond hfirstName hsecondName hu hv fun call ↦ by
        simp only [valuesAt, listMethod, hr, hs, hshares]
      simp [written, hr, hs, Scalar.display] at heq
    | some s =>
      simp only [hr, hs] at hshares
      rw [hlists.not_overwritten schema hsecond hfirst hsecondName hfirstName hv hu hs hr] at hshares
      simp at hshares
  | some r =>
    cases hs : second.route with
    | none =>
      simp only [hr, hs] at hshares
      rw [hlists.not_overwritten schema hfirst hsecond hfirstName hsecondName hu hv hr hs] at hshares
      simp at hshares
    | some s =>
      -- Both have one option of one method.
      simp only [hr, hs, Bool.and_eq_true, decide_eq_true_eq] at hshares
      obtain ⟨⟨⟨hrstyle, hsstyle⟩, hmethod⟩, hparam⟩ := hshares
      have heq := hlists.eq_of_valuesAt_eq hfirst hsecond hfirstName hsecondName hu hv fun call ↦ by
        simp only [valuesAt, listMethod, hr, hs, Option.map_some, Option.getD_some, hmethod, routedAt,
          hrstyle, hsstyle, hparam]
      simp only [written, hr, hs, Option.isSome_some, if_true] at heq
      exact encode_true_ne_encode_false _ _ heq

/-- The calls for list values carry all of them, each in one call at the place of its attribute, and
the lists can be read back, whatever the lists are: this holds of attributes that have places of
their own in both phases, and of no others. Two routes may name one option of one method, one may
name an option of assignments, and two attributes may be assigned under one key. -/
theorem ensure_carries_lists (names : List String)
    (hkeys : ∀ spec ∈ schema.attributes, '=' ∉ spec.responseKey.toList) :
    (∀ adding, ToldApart schema.toDeclaration adding names) ↔
      ∀ (identity : Identity) (changes : ChangeSet),
        (∀ name, changes.listAdds.contains name ∨ changes.listRemoves.contains name →
          name ∈ names) →
        let additions := phaseCalls schema.toDeclaration identity true changes.listAdds
        let removals := phaseCalls schema.toDeclaration identity false changes.listRemoves
        let leading := (schema.positional identity).length
        listCalls schema.toDeclaration identity changes = additions ++ removals ∧
          CarriesLists schema.toDeclaration true leading names changes.listAdds additions ∧
          CarriesLists schema.toDeclaration false leading names changes.listRemoves removals := by
  constructor
  · intro happart identity changes hnames additions removals leading
    exact ⟨rfl, carries_of_apart schema hkeys (happart true) fun name h ↦ hnames name (.inl h),
      carries_of_apart schema hkeys (happart false) fun name h ↦ hnames name (.inr h)⟩
  · intro hcarries adding
    apply apart_of_carries
    intro identity lists hlists
    cases adding with
    | true =>
      exact (hcarries identity ⟨∅, lists, ∅⟩ fun name h ↦
        h.elim (hlists name) fun h ↦ by simp [Dict.contains] at h).2.1
    | false =>
      exact (hcarries identity ⟨∅, ∅, lists⟩ fun name h ↦
        h.elim (fun h ↦ by simp [Dict.contains] at h) (hlists name)).2.2

/-- A team whose members and owners are added through one option of one method. -/
def team : ObjectSchema where
  toDeclaration := { Declaration.ofName "team" with
    attributes := [
      .identityKey "cn",
      (AttributeSpec.list "member").routed "team_add_member" "team_remove_member" "user",
      (AttributeSpec.list "owner").routed "team_add_member" "team_remove_member" "user"] }
  accepted := by decide +kernel

/-- New owners are added on their own, but a new member is lost where there is a new owner, too. -/
theorem ensure_carries_lists_team :
    let identity : Identity := .ofList [("cn", .scalar (.str "ops"))]
    let owners : Dict (List Scalar) := .ofList [("owner", [.str "carol"])]
    let both : Dict (List Scalar) := .ofList [("member", [.str "bob"]), ("owner", [.str "carol"])]
    (∀ spec ∈ team.attributes, '=' ∉ spec.responseKey.toList) ∧
      CarriesLists team.toDeclaration true (team.positional identity).length ["owner"] owners
        (phaseCalls team.toDeclaration identity true owners) ∧
      ¬ToldApart team.toDeclaration true ["member", "owner"] ∧
      listCalls team.toDeclaration identity ⟨∅, both, ∅⟩ =
        listCalls team.toDeclaration identity ⟨∅, owners, ∅⟩ := by
  intro identity owners both
  have hkeys : ∀ spec ∈ team.attributes, '=' ∉ spec.responseKey.toList := by decide +kernel
  have happart : ∀ adding, ToldApart team.toDeclaration adding ["owner"] := by decide +kernel
  have hcarries := (ensure_carries_lists team ["owner"] hkeys).1 happart identity ⟨∅, owners, ∅⟩
    fun name hname ↦ by
      rcases hname with hname | hname
      · rw [Dict.contains_iff] at hname
        exact hname
      · simp [Dict.contains] at hname
  exact ⟨hkeys, hcarries.2.1, by decide +kernel, by decide +kernel⟩

end Ensure

end DirectoryReconcile
