import DirectoryReconcile.Proofs.Directory.Effects
import DirectoryReconcile.Proofs.Ensure.Due

/-!
# Objects with a canonical principal

The hook of services hides the canonical principal among the aliases of an object that is found. A
run takes the object for one that does not store this alias, whatever it stores.
-/

namespace DirectoryReconcile

namespace ResponseHook

variable {object : RemoteObject} {principal : String}

theorem get?_dropAlias {key : String} (hkey : key ≠ aliasesKey) :
    (dropAlias principal object).get? key = object.get? key := by
  unfold dropAlias
  split
  next aliases _ =>
    simp only
    split
    · rw [Dict.get?_erase, if_neg hkey.symm]
    · rw [Dict.get?_insert, if_neg hkey.symm]
  next => rfl

theorem dropAlias_of_none (h : object.get? aliasesKey = none) :
    dropAlias principal object = object := by
  unfold dropAlias
  rw [h]

/-- The aliases that are left. -/
def others (principal : String) (scalars : List Scalar) : List Scalar :=
  scalars.filter fun v ↦ v ≠ .str principal

theorem get?_aliases_dropAlias (principal : String) {scalars : List Scalar}
    (h : object.get? aliasesKey = some (.arr (scalars.map Scalar.toJson))) :
    (dropAlias principal object).get? aliasesKey =
      if others principal scalars = [] then none
      else some (.arr ((others principal scalars).map Scalar.toJson)) := by
  have hkept : (scalars.map Scalar.toJson).filter (fun entry ↦ entry.asString? ≠ some principal) =
      (others principal scalars).map Scalar.toJson := by
    rw [List.filter_map, others]
    refine congrArg (List.map _) (List.filter_congr fun v _ ↦ ?_)
    cases v <;> simp [Scalar.toJson, Json.asString?]
  unfold dropAlias
  simp only [h, hkept, List.isEmpty_map, List.isEmpty_iff]
  split
  next => rw [Dict.get?_erase, if_pos rfl]
  next => rw [Dict.get?_insert_self]

end ResponseHook

/-- A declaration whose objects are named by a canonical principal, which the hook hides among their
aliases. -/
structure Declaration.Aliased (declaration : Declaration) (canonical aliases : AttributeSpec) :
    Prop where
  hook : declaration.responseHook = some .dropCanonicalPrincipal
  canonical_mem : canonical ∈ declaration.identityAttributes
  canonical_key : canonical.responseKey = ResponseHook.canonicalKey
  canonical_plain : canonical.encoding = .plain
  aliases_mem : aliases ∈ declaration.attributes
  aliases_list : aliases.isList = true
  aliases_key : aliases.responseKey = ResponseHook.aliasesKey
  aliases_plain : aliases.encoding = .plain

namespace Entry

open Declaration ResponseHook

/-- The entry without the canonical principal among its aliases. -/
def withoutCanonical (entry : Entry) : Entry :=
  { entry with attrs := ResponseHook.dropCanonicalPrincipal.adjust entry.attrs ∅ }

variable {declaration : Declaration} {canonical aliases spec : AttributeSpec}
  {allowed : String → Scalar → Prop} {entry : Entry} {held : Option Entry}
  (regular : declaration.Regular) (aliased : declaration.Aliased canonical aliases)

include aliased

theorem withoutCanonical_eq (hsound : entry.Sound declaration allowed) :
    entry.withoutCanonical =
      { entry with attrs := dropAlias (entry.ownText canonical) entry.attrs } := by
  have hown := hsound.get?_ownText aliased.canonical_mem
  rw [aliased.canonical_key] at hown
  have hprincipal : canonicalPrincipal? entry.attrs ∅ = some (entry.ownText canonical) := by
    unfold canonicalPrincipal?
    rw [hown]
    rfl
  unfold withoutCanonical
  simp only [dropCanonicalPrincipal, hprincipal]

theorem stock_canonical (hsound : entry.Sound declaration allowed) :
    stock (some entry) canonical = [.str (entry.ownText canonical)] :=
  Stored.scalars_of_get? (hsound.get?_ownText aliased.canonical_mem)

include regular

theorem scalars_aliases_dropAlias {attrs : Dict Json}
    (hsound : Stored.Sound declaration allowed attrs) (principal : String) :
    Stored.scalars (dropAlias principal attrs) aliases =
      others principal (Stored.scalars attrs aliases) := by
  rcases hsound.get?_cases regular aliased.aliases_mem with hnone | ⟨scalars, hget, -⟩
  · rw [dropAlias_of_none (aliased.aliases_key ▸ hnone), Stored.scalars_of_none hnone]
    rfl
  · have hleft := get?_aliases_dropAlias principal (aliased.aliases_key ▸ hget)
    rw [← aliased.aliases_key] at hleft
    rw [Stored.scalars_of_get? hget]
    split at hleft
    next hnil => rw [Stored.scalars_of_none hleft, hnil]
    next => exact Stored.scalars_of_get? hleft

theorem responseKey_ne_aliasesKey (hspec : spec ∈ declaration.attributes) (hne : spec ≠ aliases) :
    spec.responseKey ≠ aliasesKey := fun hkey ↦
  hne (regular.eq_of_responseKey_eq hspec aliased.aliases_mem (hkey.trans aliased.aliases_key.symm))

theorem preserves_dropAlias (attrs : Dict Json) (principal : String) :
    Stored.Preserves declaration allowed attrs (dropAlias principal attrs) := by
  have hidentity := (regular.list_text aliases aliased.aliases_mem aliased.aliases_list).2.1
  refine ⟨fun hsound key value hget ↦ ?_, fun spec hspec hidentity' ↦ get?_dropAlias fun hkey ↦ ?_⟩
  · by_cases hkey : key = aliasesKey
    · subst hkey
      rcases hsound.get?_cases regular aliased.aliases_mem with hnone | ⟨scalars, hstored, hstocks⟩
      · rw [aliased.aliases_key] at hnone
        simp [dropAlias_of_none hnone, hnone] at hget
      · rw [aliased.aliases_key] at hstored
        rw [get?_aliases_dropAlias principal hstored] at hget
        split at hget
        next => simp at hget
        next hne =>
          exact ⟨aliases, aliased.aliases_mem, aliased.aliases_key, _, (Option.some.inj hget).symm,
            Stored.stocks_of_sublist hstocks List.filter_sublist hne⟩
    · rw [get?_dropAlias hkey] at hget
      exact hsound key value hget
  · exact Stored.responseKey_ne regular aliased.aliases_mem hidentity hspec hidentity'
      (aliased.aliases_key.trans hkey.symm)

theorem Sound.withoutCanonical (hsound : entry.Sound declaration allowed) :
    entry.withoutCanonical.Sound declaration allowed := by
  rw [withoutCanonical_eq aliased hsound]
  exact hsound.withAttrs (preserves_dropAlias regular aliased _ _)

variable (hheld : ∀ entry ∈ held, entry.Sound declaration allowed)

include hheld

theorem sound_withoutCanonical :
    ∀ entry ∈ held.map withoutCanonical, entry.Sound declaration allowed := by
  intro entry hentry
  obtain ⟨found, hfound, rfl⟩ := Option.map_eq_some_iff.1 hentry
  exact (hheld found hfound).withoutCanonical regular aliased

theorem stock_withoutCanonical_of_ne (hspec : spec ∈ declaration.attributes)
    (hne : spec ≠ aliases) : stock (held.map withoutCanonical) spec = stock held spec := by
  cases held with
  | none => rfl
  | some entry =>
    rw [Option.map_some, withoutCanonical_eq aliased (hheld entry rfl)]
    exact Stored.scalars_congr (get?_dropAlias (responseKey_ne_aliasesKey regular aliased hspec hne))

/-- The canonical principal is missing among the aliases, and nothing else is. -/
theorem mem_stock_withoutCanonical (hspec : spec ∈ declaration.attributes) {v : Scalar} :
    v ∈ stock (held.map withoutCanonical) spec ↔
      v ∈ stock held spec ∧ (spec = aliases → v ∉ stock held canonical) := by
  by_cases heq : spec = aliases
  · subst heq
    cases held with
    | none => simp [stock]
    | some entry =>
      have hsound := hheld entry rfl
      rw [Option.map_some, withoutCanonical_eq aliased hsound, stock_canonical aliased hsound]
      simp [stock, scalars_aliases_dropAlias regular aliased hsound.stored, others]
  · simp [stock_withoutCanonical_of_ne regular aliased hheld hspec heq, heq]

end Entry

namespace Ensure

open Declaration Entry ResponseHook

variable {declaration : Declaration} {canonical aliases : AttributeSpec} {object : RemoteObject}
  {allowed : String → Scalar → Prop} {entry : Entry} {held : Option Entry} {identity : Identity}
  (regular : declaration.Regular) (aliased : declaration.Aliased canonical aliases)

include regular aliased

/-- What an object shows without its canonical principal. -/
theorem Shows.dropAlias (shows : Shows declaration (some entry) object)
    (hsound : entry.Sound declaration allowed)
    (haliases : object.get? aliasesKey = if stock (some entry) aliases = [] then none
      else some (.arr ((stock (some entry) aliases).map Scalar.toJson))) :
    Shows declaration (some entry.withoutCanonical)
      (ResponseHook.dropAlias (entry.ownText canonical) object) := by
  have hheld : ∀ found ∈ some entry, found.Sound declaration allowed := by
    rintro _ ⟨⟩
    exact hsound
  refine ⟨fun spec hspec ↦ ?_, fun key hkey ↦ ?_⟩
  · by_cases heq : spec = aliases
    · subst heq
      have hstock : stock (some entry.withoutCanonical) spec =
          others (entry.ownText canonical) (stock (some entry) spec) := by
        rw [withoutCanonical_eq aliased hsound]
        exact scalars_aliases_dropAlias regular aliased hsound.stored _
      rw [hstock, aliased.aliases_key]
      by_cases hempty : stock (some entry) spec = []
      · rw [if_pos hempty] at haliases
        exact .inl ⟨by rw [hempty]; rfl, by rwa [dropAlias_of_none haliases]⟩
      rw [if_neg hempty] at haliases
      rw [get?_aliases_dropAlias _ haliases]
      by_cases hleft : others (entry.ownText canonical) (stock (some entry) spec) = []
      · exact .inl ⟨hleft, if_pos hleft⟩
      refine .inr ⟨hleft, _, if_neg hleft, AttributeSpec.canonical_of_elements rfl (fun v hv ↦ ?_)
        fun hcard ↦ absurd hcard (Stored.cardinality_ne_scalar aliased.aliases_list)⟩
      have hkeeps := (hsound.stored.stocks regular hspec hempty).keeps v (List.mem_of_mem_filter hv)
      exact ⟨hkeeps.ne_null, hkeeps.bare⟩
    · have hstock := stock_withoutCanonical_of_ne regular aliased hheld hspec heq
      rw [Option.map_some] at hstock
      rw [get?_dropAlias (responseKey_ne_aliasesKey regular aliased hspec heq), hstock]
      exact shows.declared spec hspec
  · rw [get?_dropAlias]
    · exact shows.undeclared key hkey
    · rintro rfl
      exact hkey aliases aliased.aliases_mem aliased.aliases_key

theorem canonicalPrincipal?_fit (hsound : entry.Sound declaration allowed) :
    canonicalPrincipal? (Response.fit declaration (reported declaration (some entry))) identity =
      some (entry.ownText canonical) := by
  obtain ⟨hmem, hidentity⟩ := mem_identityAttributes.1 aliased.canonical_mem
  have hscalar : canonical.isList = false := by
    simp [AttributeSpec.isList, (regular.identity_text canonical hmem hidentity).1]
  have hheld : ∀ found ∈ some entry, found.Sound declaration allowed := by
    rintro _ ⟨⟩
    exact hsound
  have hget := get?_fit_reported regular hheld hmem
  rw [aliased.canonical_key, aliased.canonical_plain, stock_canonical aliased hsound,
    hscalar] at hget
  unfold canonicalPrincipal?
  rw [hget]
  rfl

theorem get?_aliases_fit (hheld : ∀ entry ∈ held, entry.Sound declaration allowed) :
    (Response.fit declaration (reported declaration held)).get? aliasesKey =
      if stock held aliases = [] then none
      else some (.arr ((stock held aliases).map Scalar.toJson)) := by
  have hget := get?_fit_reported regular hheld aliased.aliases_mem
  rw [aliased.aliases_key, aliased.aliases_list, aliased.aliases_plain,
    Response.fitValue_arr] at hget
  exact hget

/-- An object shows what it stores without its own canonical principal. -/
theorem shown_of_aliased (hsound : entry.Sound declaration allowed) :
    shown declaration identity (some entry) = dropAlias (entry.ownText canonical)
      (Response.fit declaration (reported declaration (some entry))) := by
  have hprincipal : canonicalPrincipal?
      (Response.fit declaration (reported declaration (some entry))) identity =
        some (entry.ownText canonical) := canonicalPrincipal?_fit regular aliased hsound
  have hshown : shown declaration identity (some entry) = dropCanonicalPrincipal.adjust
      (Response.fit declaration (reported declaration (some entry))) identity := by
    unfold shown
    rw [Response.present, aliased.hook]
    rfl
  rw [hshown]
  simp only [dropCanonicalPrincipal, hprincipal]

/-- An object with a canonical principal is found as if the principal were not among its aliases. -/
theorem shows_withoutCanonical (hheld : ∀ entry ∈ held, entry.Sound declaration allowed) :
    Shows declaration (held.map withoutCanonical) (shown declaration identity held) := by
  have hfit := shows_fit regular hheld
  have haliases := get?_aliases_fit regular aliased hheld
  cases held with
  | none =>
    have hshown : shown declaration identity none = dropCanonicalPrincipal.adjust
        (Response.fit declaration (reported declaration none)) identity := by
      unfold shown
      rw [Response.present, aliased.hook]
      rfl
    rw [hshown]
    simp only [dropCanonicalPrincipal]
    split
    next => rwa [dropAlias_of_none haliases]
    next => exact hfit
  | some entry =>
    rw [shown_of_aliased regular aliased (hheld entry rfl)]
    exact hfit.dropAlias regular aliased (hheld entry rfl) haliases

end Ensure

namespace Directory

/-- The attribute that names a service. -/
def canonicalName : AttributeSpec := .identityKey "krbcanonicalname"

/-- The other names of a service. -/
def principals : AttributeSpec := .list "krbprincipalname"

theorem aliased_service : ObjectSchema.service.Aliased canonicalName principals where
  hook := rfl
  canonical_mem := List.mem_filter.2 ⟨by simp [ObjectSchema.service, canonicalName], rfl⟩
  canonical_key := rfl
  canonical_plain := rfl
  aliases_mem := by simp [ObjectSchema.service, principals]
  aliases_list := rfl
  aliases_key := rfl
  aliases_plain := rfl

end Directory

namespace Ensure

open Declaration Entry ResponseHook

variable {schema : ObjectSchema} (hschema : schema ∈ ObjectSchema.builtins)
  {allowed : String → Scalar → Prop} {held : Option Entry}
  (hheld : ∀ entry ∈ held, entry.Sound schema.toDeclaration allowed)

include hschema hheld

/-- An object is found when it exists, with or without a canonical principal. -/
theorem isEmpty_shown {identity : Identity} (covers : schema.toDeclaration.Covers identity) :
    (shown schema.toDeclaration identity held).isEmpty = held.isNone := by
  have hregular := ObjectSchema.regular_of_mem_builtins hschema
  by_cases hservice : schema.name = ObjectSchema.service.name
  · obtain rfl := ObjectSchema.eq_of_name_eq hschema (by simp [ObjectSchema.builtins]) hservice
    have aliased := Directory.aliased_service
    have hshows : Shows ObjectSchema.service.toDeclaration (held.map withoutCanonical)
        (shown ObjectSchema.service.toDeclaration identity held) :=
      shows_withoutCanonical hregular aliased hheld
    rw [hshows.isEmpty_eq hregular (sound_withoutCanonical hregular aliased hheld),
      Option.isNone_map]
  · have hidle := ObjectSchema.idle_of_mem_builtins hschema hservice
    exact (shows_shown hregular hheld hidle covers).isEmpty_eq hregular hheld

/-- What is shown of an object does not depend on the identity that it is asked for by. -/
theorem shown_congr {identity identity' : Identity} (covers : schema.toDeclaration.Covers identity)
    (covers' : schema.toDeclaration.Covers identity') :
    shown schema.toDeclaration identity held = shown schema.toDeclaration identity' held := by
  have hregular := ObjectSchema.regular_of_mem_builtins hschema
  by_cases hservice : schema.name = ObjectSchema.service.name
  · cases held with
    | none =>
      have hempty (identity : Identity) (covers : schema.toDeclaration.Covers identity) :
          shown schema.toDeclaration identity none = ∅ :=
        (Dict.isEmpty_iff _).1 (isEmpty_shown hschema hheld covers)
      rw [hempty identity covers, hempty identity' covers']
    | some entry =>
      obtain rfl := ObjectSchema.eq_of_name_eq hschema (by simp [ObjectSchema.builtins]) hservice
      have aliased := Directory.aliased_service
      rw [shown_of_aliased hregular aliased (hheld entry rfl),
        shown_of_aliased hregular aliased (hheld entry rfl)]
  · have hidle := ObjectSchema.idle_of_mem_builtins hschema hservice
    rw [shown_eq hheld hidle covers, shown_eq hheld hidle covers']

end Ensure

end DirectoryReconcile
