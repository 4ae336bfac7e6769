import DirectoryReconcile.Proofs.Directory.Routing
import DirectoryReconcile.Proofs.Directory.Sound
import DirectoryReconcile.Proofs.Ensure.Validation

/-!
# Searching for one object

The service reports every entry whose identity contains the texts asked for. Of these the one with
the identity itself is wanted, and no other is.
-/

namespace DirectoryReconcile

namespace Response

theorem result_resultBody (value : Json) :
    result (Directory.resultBody value) = (value.get? "result").getD value := by
  have hget : (Directory.resultBody value).get? "result" = some value := by
    unfold Directory.resultBody
    rw [Json.get?_ofFields (by simp)]
    simp [Dict.lookupEntry]
  unfold result
  rw [hget]

theorem fault?_resultBody (method : String) (value : Json) :
    fault? method (Directory.resultBody value) = none := by
  have hget : (Directory.resultBody value).get? "error" = some .null := by
    unfold Directory.resultBody
    rw [Json.get?_ofFields (by simp)]
    simp [Dict.lookupEntry]
  unfold fault?
  rw [hget]

end Response

theorem Text.containsText_self (s : String) : containsText s s = true := by
  unfold containsText
  cases s.toList with
  | nil => rfl
  | cons c rest => simp [isInside]

namespace Entry

open Declaration

variable {declaration : Declaration} {allowed : String → Scalar → Prop} {entry : Entry}

/-- Of entries that are all told apart, at most one has this identity. -/
theorem filter_isNamed {entries : List Entry} (hdistinct : Distinct entries)
    (identity : List String) :
    (entries.filter fun entry ↦ entry.isNamed identity) = (focus identity entries).toList := by
  induction entries with
  | nil => rfl
  | cons head rest ih =>
    obtain ⟨hhead, hrest⟩ := List.pairwise_cons.1 hdistinct
    rw [List.filter_cons]
    split
    next hnamed =>
      have hnone : focus identity rest = none := focus_eq_none_iff.2 fun other hother hsame ↦
        hhead other hother (sameIdentity_trans hnamed (sameIdentity_symm hsame))
      rw [ih hrest, hnone, focus_cons_of_named hnamed]
      rfl
    next hnamed => rw [ih hrest, focus_cons_of_not_named hnamed]

theorem sameIdentity_map {α : Type} (xs : List α) (f g : α → String) :
    sameIdentity (xs.map f) (xs.map g) = true ↔ ∀ x ∈ xs, Text.sameIgnoringCase (f x) (g x) = true := by
  induction xs with
  | nil => simp [sameIdentity]
  | cons head rest ih => simp [sameIdentity, ih]

/-- A list of texts, one for each attribute, as a function of the attributes. -/
theorem map_of_zip {α β : Type} {xs : List α} {ys : List β} {f : α → β}
    (hlength : ys.length = xs.length) (h : ∀ pair ∈ xs.zip ys, f pair.1 = pair.2) : xs.map f = ys := by
  have hfst : (xs.zip ys).map Prod.fst = xs := List.map_fst_zip (Nat.le_of_eq hlength.symm)
  have hsnd : (xs.zip ys).map Prod.snd = ys := List.map_snd_zip (Nat.le_of_eq hlength)
  calc xs.map f = (xs.zip ys).map (f ∘ Prod.fst) := by rw [← List.map_map, hfst]
    _ = (xs.zip ys).map Prod.snd := List.map_congr_left h
    _ = ys := hsnd

/-- What a report of an entry has at a key. -/
theorem get?_render (declaration : Declaration) (entry : Entry) (key : String) :
    (entry.render declaration).get? key = (entry.attrs.get? key).map
      (wrapped (((declaration.attributeOfResponseKey? key).map (·.encoding)).getD .plain)) := by
  unfold render
  rw [Json.get?, Dict.get?]
  induction entry.attrs.entries with
  | nil => rfl
  | cons head rest ih =>
    rw [List.map_cons, Dict.lookupEntry, Dict.lookupEntry]
    split
    next heq => rw [← heq, Option.map_some]
    next => exact ih

variable (regular : declaration.Regular) {identity : Identity} {texts : List String}

include regular

/-- The text of an identity attribute, as an entry carries it. -/
theorem canonical_identity {spec : AttributeSpec} (hspec : spec ∈ declaration.attributes)
    (hidentity : spec.identity = true) (text : String) :
    spec.canonical (wrapped spec.encoding (.arr [.str text])) = .ok (.scalar (.str text)) := by
  have hkeeps := regular.keeps_identity hspec hidentity text
  have hcard := (regular.identity_text spec hspec hidentity).1
  have hwritten : AttributeSpec.elements (wrapped spec.encoding (.arr [.str text])) =
      [Scalar.str text].map fun v ↦ spec.encoding.wrap v.toJson := rfl
  have hread : spec.canonical (wrapped spec.encoding (.arr [.str text])) =
      .ok (spec.valueOf [.str text]) :=
    AttributeSpec.canonical_of_elements hwritten (by simpa using hkeeps.wrapped) (by simp)
  rw [hread, AttributeSpec.valueOf, hcard]
  rfl

omit regular in
/-- The text that an entry carries for an identity attribute. -/
def ownText (entry : Entry) (spec : AttributeSpec) : String :=
  ((Stored.valuesOf entry.attrs spec.responseKey).head?.bind Json.asString?).getD ""

omit regular in
/-- The text that is asked for in an identity attribute. -/
def askedText (identity : Identity) (spec : AttributeSpec) : String :=
  match identity.get? spec.name with
  | some (.scalar (.str text)) => text
  | _ => ""

omit regular in
theorem Sound.map_ownText (hsound : entry.Sound declaration allowed) :
    declaration.identityAttributes.map entry.ownText = entry.identity :=
  map_of_zip hsound.length_eq fun pair hpair ↦ by
    simp [ownText, Stored.valuesOf_of_get? (hsound.signed pair hpair), Json.asString?]

theorem map_askedText (spells : declaration.Spells identity texts) :
    declaration.identityAttributes.map (askedText identity) = texts :=
  map_of_zip spells.length_eq fun pair hpair ↦ by
    simp [askedText, spells.get?_of_mem regular hpair]

omit regular in
theorem Sound.get?_ownText (hsound : entry.Sound declaration allowed) {spec : AttributeSpec}
    (hspec : spec ∈ declaration.identityAttributes) :
    entry.attrs.get? spec.responseKey = some (.arr [.str (entry.ownText spec)]) := by
  have hfst : (declaration.identityAttributes.zip entry.identity).map Prod.fst =
      declaration.identityAttributes := List.map_fst_zip (Nat.le_of_eq hsound.length_eq.symm)
  rw [← hfst] at hspec
  obtain ⟨pair, hpair, rfl⟩ := List.mem_map.1 hspec
  have hget := hsound.signed pair hpair
  simp [hget, ownText, Stored.valuesOf_of_get? hget, Json.asString?]

theorem get?_askedText (spells : declaration.Spells identity texts) {spec : AttributeSpec}
    (hspec : spec ∈ declaration.identityAttributes) :
    identity.get? spec.name = some (.scalar (.str (askedText identity spec))) := by
  rw [← pairs_fst spells.length_eq] at hspec
  obtain ⟨pair, hpair, rfl⟩ := List.mem_map.1 hspec
  have hget := spells.get?_of_mem regular hpair
  simp [hget, askedText]

theorem carries_render (hsound : entry.Sound declaration allowed) {spec : AttributeSpec}
    (hspec : spec ∈ declaration.identityAttributes) (text : String) :
    FindPredicate.carries declaration.attributes (entry.render declaration) spec.name
      (.scalar (.str text)) = Text.sameIgnoringCase text (entry.ownText spec) := by
  obtain ⟨hmem, hidentity⟩ := mem_identityAttributes.1 hspec
  have hnamed : AttributeSpec.named? declaration.attributes spec.name = some spec :=
    regular.attribute?_of_mem hmem
  unfold FindPredicate.carries
  rw [hnamed]
  simp only [get?_render, hsound.get?_ownText hspec, regular.attributeOfResponseKey?_of_mem hmem,
    Option.map_some, Option.getD_some, canonical_identity regular hmem hidentity]
  simp [AttrValue.values, Scalar.sameName]

/-- An entry is wanted when it has the identity that was asked for. -/
theorem isWanted_render (spells : declaration.Spells identity texts)
    (hsound : entry.Sound declaration allowed) :
    declaration.isWanted identity (entry.render declaration) = entry.isNamed texts := by
  have hholds : declaration.isWanted identity (entry.render declaration) = true ↔
      ∀ spec ∈ declaration.identityAttributes,
        Text.sameIgnoringCase (askedText identity spec) (entry.ownText spec) = true := by
    unfold Declaration.isWanted
    rw [regular.matched]
    simp only [Option.all_some, FindPredicate.identityMatches, List.all_eq_true]
    constructor
    · intro h spec hspec
      have hentry := identity.mem_entries_iff.2 (get?_askedText regular spells hspec)
      simpa only [carries_render regular hsound hspec] using h _ hentry
    · rintro h ⟨name, value⟩ hentry
      obtain ⟨pair, hpair, rfl, rfl⟩ :=
        spells.mem_of_get? regular (identity.mem_entries_iff.1 hentry)
      have hspec := mem_identityAttributes.2 (mem_of_mem_pairs hpair)
      have hsame := h pair.1 hspec
      have hasked : askedText identity pair.1 = pair.2 := by
        simp [askedText, spells.get?_of_mem regular hpair]
      simpa only [carries_render regular hsound hspec, hasked] using hsame
  rw [Bool.eq_iff_iff, hholds, isNamed]
  conv_rhs => rw [← hsound.map_ownText, ← map_askedText regular spells, sameIdentity_map]
  exact forall₂_congr fun spec _ ↦ ⟨Text.sameIgnoringCase_symm, Text.sameIgnoringCase_symm⟩

end Entry

namespace Operation

open Declaration Entry

variable {declaration : Declaration} {allowed : String → Scalar → Prop} {identity : Identity}
  {texts : List String}

theorem meets_of_sameIdentity {wanted own : List String} (h : sameIdentity own wanted) :
    meets (wanted.map some) own = true := by
  induction wanted generalizing own with
  | nil => rfl
  | cons head rest ih =>
    cases own with
    | nil => simp [sameIdentity] at h
    | cons text own =>
      simp only [sameIdentity, Text.sameIgnoringCase, Bool.and_eq_true, decide_eq_true_eq] at h
      rw [List.map_cons, meets, h.1, Text.containsText_self, Bool.true_and]
      exact ih h.2

theorem criteria_pairs {arguments : Arguments} {pairs : List (AttributeSpec × String)}
    (hoptions : ∀ pair ∈ pairs, pair.1.findKeyword = true →
      (arguments.item.get? pair.1.name).map Stored.text = some pair.2) :
    criteria arguments (pairs.map Prod.fst)
        ((pairs.filter fun pair ↦ !pair.1.findKeyword).map fun pair ↦
          pair.1.encoding.wrap (.str pair.2)) =
      pairs.map fun pair ↦ some pair.2 := by
  have htext (encoding : Encoding) (s : String) : Stored.text (encoding.wrap (.str s)) = s := by
    cases encoding <;> rfl
  induction pairs with
  | nil => rfl
  | cons head rest ih =>
    have hrest := ih fun pair hpair ↦ hoptions pair (List.mem_cons_of_mem _ hpair)
    rw [List.map_cons, List.map_cons, criteria, List.filter_cons]
    by_cases hkeyword : head.1.findKeyword = true
    · simp only [hkeyword, if_true, Bool.not_true, Bool.false_eq_true, if_false]
      rw [hoptions head List.mem_cons_self hkeyword, hrest]
    · rw [Bool.not_eq_true] at hkeyword
      simp only [hkeyword, Bool.not_false, if_true, List.map_cons, List.head?_cons,
        Option.map_some, List.tail_cons, htext, Bool.false_eq_true, if_false]
      rw [hrest]

variable (regular : declaration.Regular)

include regular

theorem get?_findCall (spells : declaration.Spells identity texts)
    {pair : AttributeSpec × String} (hpair : pair ∈ declaration.pairs texts)
    (hkeyword : pair.1.findKeyword = true) :
    (declaration.findCall identity).item.get? pair.1.name =
      some (pair.1.encoding.wrap (.str pair.2)) := by
  have hempty : declaration.findArgs.entries = [] := List.isEmpty_iff.1 regular.findArgs_empty
  have hfst : declaration.identityAttributes.filter (·.findKeyword) =
      ((declaration.pairs texts).filter fun pair ↦ pair.1.findKeyword).map Prod.fst := by
    rw [← pairs_fst spells.length_eq, List.filter_map]
    rfl
  have hoptions : declaration.searchOptions identity =
      .ofList (((declaration.pairs texts).filter fun pair ↦ pair.1.findKeyword).map fun pair ↦
        (pair.1.name, pair.1.encoding.wrap (.str pair.2))) := by
    unfold searchOptions
    rw [hfst, spells.encodedIdentity_eq regular]
    exact fun pair hpair ↦ (List.mem_filter.1 hpair).1
  have hnodup : ((((declaration.pairs texts).filter fun pair ↦ pair.1.findKeyword).map fun pair ↦
      (pair.1.name, pair.1.encoding.wrap (.str pair.2))).map Prod.fst).Nodup := by
    rw [List.map_map]
    exact (spells.nodup_names regular).sublist (List.filter_sublist.map _)
  rw [findCall, hempty, List.append_nil, Dict.get?_insertMany_entries, hoptions,
    Dict.get?_ofList hnodup]
  have hmem : (pair.1.name, pair.1.encoding.wrap (.str pair.2)) ∈
      ((declaration.pairs texts).filter fun pair ↦ pair.1.findKeyword).map fun pair ↦
        (pair.1.name, pair.1.encoding.wrap (.str pair.2)) :=
    List.mem_map.2 ⟨pair, List.mem_filter.2 ⟨hpair, hkeyword⟩, rfl⟩
  rw [Dict.lookupEntry_of_mem hnodup hmem, Option.some_or]

/-- A search for an identity asks for its texts. -/
theorem criteria_findCall (spells : declaration.Spells identity texts) :
    criteria (declaration.findCall identity).arguments declaration.identityAttributes
        (declaration.findCall identity).positional = texts.map some := by
  have hfst : (declaration.identityAttributes.filter fun spec ↦ !spec.findKeyword) =
      ((declaration.pairs texts).filter fun pair ↦ !pair.1.findKeyword).map Prod.fst := by
    rw [← pairs_fst spells.length_eq, List.filter_map]
    rfl
  have hpositional : (declaration.findCall identity).positional =
      ((declaration.pairs texts).filter fun pair ↦ !pair.1.findKeyword).map fun pair ↦
        pair.1.encoding.wrap (.str pair.2) := by
    unfold findCall
    rw [searchPositional, hfst, spells.encodedIdentity_eq regular, List.map_map]
    · rfl
    · exact fun pair hpair ↦ (List.mem_filter.1 hpair).1
  have htext (encoding : Encoding) (s : String) : Stored.text (encoding.wrap (.str s)) = s := by
    cases encoding <;> rfl
  rw [hpositional, ← pairs_fst spells.length_eq, criteria_pairs]
  · conv_rhs => rw [← pairs_snd spells.length_eq, List.map_map]
    rfl
  · intro pair hpair hkeyword
    unfold RemoteCall.arguments
    rw [get?_findCall regular spells hpair hkeyword, Option.map_some, htext]

/-- The search for an identity reports the entry with that identity, if there is one. -/
theorem object_search (spells : declaration.Spells identity texts) {entries : List Entry}
    (hdistinct : Distinct entries) (hsound : ∀ entry ∈ entries, entry.Sound declaration allowed) :
    Response.object declaration (declaration.isWanted identity) identity
        (Directory.resultBody
          (search declaration entries (declaration.findCall identity).arguments)) =
      Response.present declaration identity
        (((focus texts entries).map (render declaration)).getD .null) := by
  have hresult : Response.result (Directory.resultBody
      (search declaration entries (declaration.findCall identity).arguments)) =
        .arr ((entries.filter fun entry ↦ meets (texts.map some) entry.identity).map
          (render declaration)) := by
    have hcriteria := criteria_findCall regular spells
    rw [Response.result_resultBody, search]
    simp only [RemoteCall.arguments] at hcriteria ⊢
    rw [hcriteria, Json.get?_ofFields (by simp)]
    simp [Dict.lookupEntry]
  have hkept : ((entries.filter fun entry ↦ meets (texts.map some) entry.identity).map
      (render declaration)).filter (declaration.isWanted identity) =
        ((focus texts entries).toList).map (render declaration) := by
    rw [List.filter_map, List.filter_filter, ← filter_isNamed hdistinct texts]
    congr 1
    apply List.filter_congr
    intro entry hentry
    rw [Function.comp_apply, isWanted_render regular spells (hsound entry hentry)]
    cases hnamed : entry.isNamed texts with
    | false => rfl
    | true => exact meets_of_sameIdentity hnamed
  unfold Response.object
  rw [hresult, Response.select, hkept]
  cases focus texts entries <;> rfl

end Operation

end DirectoryReconcile
