import DirectoryReconcile.Proofs.Directory.Effects
import DirectoryReconcile.Proofs.Ensure.Aliases
import DirectoryReconcile.Proofs.Ensure.Leading
import DirectoryReconcile.Schema.Registry

/-!
# Candidates of a search

A search returns the last candidate that has the requested values. The candidate is tested as it
came, and the object that is returned would pass as well: its shape and its aliases are not what the
values of an identity depend on. Two candidates with values apart pass the same test only if the
request has an empty list where they differ.
-/

namespace DirectoryReconcile

namespace Json

/-- No key of an object is there twice. -/
def HasDistinctKeys : Json → Prop
  | .obj fields => (fields.map (·.1)).Nodup
  | _ => True

/-- A reader leaves each key once. -/
theorem hasDistinctKeys_canonical (value : Json) : value.canonical.HasDistinctKeys := by
  cases value with
  | obj fields => exact Dict.nodup_keys _
  | null | bool | int | float | str | arr => trivial

theorem HasDistinctKeys.get?_fields {value : Json} (h : value.HasDistinctKeys) (key : String) :
    value.fields.get? key = value.get? key := by
  cases value with
  | obj fields => exact Dict.get?_ofList h key
  | null | bool | int | float | str | arr => rfl

end Json

namespace FindPredicate

variable {attributes : List AttributeSpec} {identity : Identity} {candidate : Json}
  {name : String} {wanted : AttrValue} {spec : AttributeSpec}

theorem identityMatches_iff : identityMatches.holds attributes identity candidate = true ↔
    ∀ name wanted, identity.get? name = some wanted →
      carries attributes candidate name wanted = true := by
  simp only [identityMatches, List.all_eq_true]
  constructor
  · exact fun h name wanted hget ↦ h (name, wanted) (identity.mem_entries_iff.2 hget)
  · exact fun h entry hentry ↦ h entry.1 entry.2 (identity.mem_entries_iff.1 hentry)

theorem carries_iff (hspec : AttributeSpec.named? attributes name = some spec) :
    carries attributes candidate name wanted = true ↔
      ∀ raw, candidate.get? spec.responseKey = some raw → ∃ found, spec.canonical raw = .ok found ∧
        ∀ w ∈ wanted.values, ∃ f ∈ found.values, w.sameName f = true := by
  unfold carries
  simp only [hspec]
  cases candidate.get? spec.responseKey with
  | none => simp
  | some raw => cases hfound : spec.canonical raw <;> simp [hfound]

/-- An empty list is carried by every candidate whose own value can be read. -/
theorem carries_nil (hspec : AttributeSpec.named? attributes name = some spec) {raw : Json}
    {value : AttrValue} (hraw : candidate.get? spec.responseKey = some raw)
    (hvalue : spec.canonical raw = .ok value) : carries attributes candidate name (.list []) = true := by
  rw [carries_iff hspec, hraw]
  rintro _ ⟨⟩
  exact ⟨value, hvalue, by simp [AttrValue.values]⟩

/-- Nothing but an empty list is among two values that are apart. -/
theorem eq_nil_of_apart {first second : AttrValue}
    (hapart : ∀ v ∈ first.values, ∀ w ∈ second.values, v.sameName w = false)
    (hfirst : ∀ w ∈ wanted.values, ∃ f ∈ first.values, w.sameName f = true)
    (hsecond : ∀ w ∈ wanted.values, ∃ f ∈ second.values, w.sameName f = true) :
    wanted = .list [] := by
  -- A value that both carry would be a value that they share.
  have hnone (w : Scalar) : w ∉ wanted.values := by
    intro hw
    obtain ⟨v, hv, hwv⟩ := hfirst w hw
    obtain ⟨v', hv', hwv'⟩ := hsecond w hw
    have hsame : v.sameName v' = true := Scalar.sameName_trans (Scalar.sameName_symm hwv) hwv'
    exact Bool.false_ne_true ((hapart v hv v' hv').symm.trans hsame)
  cases wanted with
  | scalar value => exact absurd List.mem_cons_self (hnone value)
  | list values => exact congrArg _ (List.eq_nil_iff_forall_not_mem.2 hnone)

end FindPredicate

namespace ResponseHook

theorem get?_adjust (object : RemoteObject) (identity : Identity) {key : String}
    (hkey : key ≠ aliasesKey) :
    (dropCanonicalPrincipal.adjust object identity).get? key = object.get? key := by
  simp only [dropCanonicalPrincipal]
  split
  next => exact get?_dropAlias hkey
  next => rfl

theorem adjust_empty (identity : Identity) : dropCanonicalPrincipal.adjust ∅ identity = ∅ := by
  simp only [dropCanonicalPrincipal]
  split
  next => exact dropAlias_of_none rfl
  next => rfl

end ResponseHook

namespace ObjectSchema

variable {schema : ObjectSchema} (hschema : schema ∈ builtins)

include hschema

theorem responseHook_of_mem_builtins :
    schema.responseHook = none ∨ schema.responseHook = some .dropCanonicalPrincipal := by
  simp only [builtins, List.mem_cons, List.not_mem_nil, or_false] at hschema
  rcases hschema with rfl | rfl | rfl | rfl | rfl | rfl | rfl
  · exact .inl rfl
  · exact .inr rfl
  · exact .inr rfl
  · exact .inl rfl
  · exact .inl rfl
  · exact .inl rfl
  · exact .inl rfl

/-- No identity stands among the aliases. -/
theorem responseKey_ne_aliasesKey {spec : AttributeSpec} (hspec : spec ∈ schema.attributes)
    (hidentity : spec.identity = true) : spec.responseKey ≠ ResponseHook.aliasesKey :=
  (by decide +kernel : ∀ s ∈ builtins, ∀ spec ∈ s.attributes, spec.identity = true →
    spec.responseKey ≠ ResponseHook.aliasesKey) schema hschema spec hspec hidentity

end ObjectSchema

namespace Response

/-- Of a list the last element that passes is kept, and nothing if none passes. -/
theorem select_cases (keep : Json → Bool) (items : List Json) :
    (∀ item ∈ items, keep item = false) ∧ select keep (.arr items) = .null ∨
      ∃ before last after, items = before ++ last :: after ∧ keep last = true ∧
        (∀ item ∈ after, keep item = false) ∧ select keep (.arr items) = last := by
  have hselect : select keep (.arr items) = ((items.filter keep).getLast?).getD .null := rfl
  cases hlast : (items.filter keep).getLast? with
  | none =>
    have hnone := List.filter_eq_nil_iff.1 (List.getLast?_eq_none_iff.1 hlast)
    exact .inl ⟨fun item hitem ↦ by simpa using hnone item hitem, by rw [hselect, hlast]; rfl⟩
  | some last =>
    -- Nothing is kept after the last element that is kept, so nothing after it passes.
    obtain ⟨kept, hkept⟩ := List.getLast?_eq_some_iff.1 hlast
    obtain ⟨front, back, hitems, -, hback⟩ := List.filter_eq_append_iff.1 hkept
    obtain ⟨skipped, after, hsplit, -, hkeep, hafter⟩ := List.filter_eq_cons_iff.1 hback
    have hnone := List.filter_eq_nil_iff.1 hafter
    refine .inr ⟨front ++ skipped, last, after, ?split, hkeep, ?rejected, by rw [hselect, hlast]; rfl⟩
    case split => rw [hitems, hsplit, List.append_assoc]
    case rejected => exact fun item hitem ↦ by simpa using hnone item hitem

section

variable {declaration : Declaration} {identity : Identity} {candidate : Json}
  (hhook : declaration.responseHook = none ∨
    declaration.responseHook = some .dropCanonicalPrincipal)

include hhook

theorem present_null : present declaration identity .null = ∅ := by
  have hfit : fit declaration ∅ = ∅ := by
    ext key
    rw [get?_fit]
    rfl
  unfold present
  rcases hhook with hnone | hdrop
  · rw [hnone]
    exact hfit
  · rw [hdrop]
    exact (congrArg (ResponseHook.dropCanonicalPrincipal.adjust · identity) hfit).trans
      (ResponseHook.adjust_empty identity)

theorem get?_present (hkeys : candidate.HasDistinctKeys) {key : String}
    (hkey : key ≠ ResponseHook.aliasesKey) : (present declaration identity candidate).get? key =
      (candidate.get? key).map (fitted declaration.attributes key) := by
  rw [← hkeys.get?_fields, ← get?_fit]
  unfold present
  rcases hhook with hnone | hdrop
  · rw [hnone]
  · rw [hdrop]
    exact ResponseHook.get?_adjust _ _ hkey

/-- What a candidate carries the object that is made of it carries, too. -/
theorem carries_present (hkeys : candidate.HasDistinctKeys) {name : String} {wanted : AttrValue}
    {spec : AttributeSpec} (hspec : declaration.attribute? name = some spec)
    (hknown : ∀ normalizer ∈ spec.normalizer, normalizer ∈ ValueNormalizer.known)
    (hkey : spec.responseKey ≠ ResponseHook.aliasesKey)
    (h : FindPredicate.carries declaration.attributes candidate name wanted = true) :
    FindPredicate.carries declaration.attributes
      (.ofDict (present declaration identity candidate)) name wanted = true := by
  rw [FindPredicate.carries_iff hspec] at h ⊢
  intro raw hraw
  have hget : (present declaration identity candidate).get? spec.responseKey =
      (candidate.get? spec.responseKey).map (fitted declaration.attributes spec.responseKey) :=
    get?_present hhook hkeys hkey
  obtain ⟨reported, hreported, rfl⟩ := Option.map_eq_some_iff.1 (hget.symm.trans hraw)
  obtain ⟨found, hfound, hwanted⟩ := h reported hreported
  exact ⟨found, AttributeSpec.canonical_fitted hknown _ _ hfound, hwanted⟩

end

end Response

namespace Declaration

open FindPredicate

/-- The object made of a candidate with the requested identity has that identity. -/
theorem identityMatches_present {schema : ObjectSchema} (hschema : schema ∈ ObjectSchema.builtins)
    {identity : Identity} {texts : List String}
    (spells : schema.toDeclaration.Spells identity texts) {candidate : Json}
    (hkeys : candidate.HasDistinctKeys)
    (h : identityMatches.holds schema.attributes identity candidate = true) :
    identityMatches.holds schema.attributes identity
      (.ofDict (Response.present schema.toDeclaration identity candidate)) = true := by
  have regular := ObjectSchema.regular_of_mem_builtins hschema
  rw [identityMatches_iff] at h ⊢
  intro name wanted hget
  obtain ⟨pair, hpair, rfl, -⟩ := spells.mem_of_get? regular hget
  obtain ⟨hspec, hidentity⟩ := mem_of_mem_pairs hpair
  exact Response.carries_present (ObjectSchema.responseHook_of_mem_builtins hschema) hkeys
    (regular.attribute?_of_mem hspec) (regular.paired _ hspec).known
    (ObjectSchema.responseKey_ne_aliasesKey hschema hspec hidentity) (h _ wanted hget)

theorem result_find {declaration : Declaration} {identity : Identity} {σ : Type}
    {transport : Transport σ} {state : σ} {body : Json}
    (hreply : (transport state (declaration.findCall identity).method
      (declaration.findCall identity).params).1 = .ok body)
    (hfault : Response.fault? declaration.methods.find body = none) :
    (Exchange.run transport (declaration.find identity) state).1.result =
      .ok (Response.object declaration (declaration.isWanted identity) identity body) := by
  have hfault' : Response.fault? (declaration.findCall identity).method body = none := hfault
  unfold find exchange Exchange.request
  simp only [Exchange.bind_eq, Exchange.bind, Exchange.run, hreply, hfault', Exchange.pure_eq_done]

/-- A search returns the last candidate with the requested identity, or an empty object if there is
none. The identity can still be told from the object that is returned. -/
theorem find_returns_last {schema : ObjectSchema} (hschema : schema ∈ ObjectSchema.builtins)
    {desired : DesiredState} {identity : Identity}
    (hvalidate : Ensure.validate schema.toDeclaration desired = .ok identity) {σ : Type}
    (transport : Transport σ) (state : σ) {body : Json} {items : List Json}
    (hreply : (transport state (schema.toDeclaration.findCall identity).method
      (schema.toDeclaration.findCall identity).params).1 = .ok body)
    (hfault : Response.fault? schema.methods.find body = none)
    (hresult : Response.result body = .arr items) (hkeys : ∀ item ∈ items, item.HasDistinctKeys) :
    ∃ found, (Exchange.run transport (schema.toDeclaration.find identity) state).1.result =
        .ok found ∧
      ((∀ item ∈ items, identityMatches.holds schema.attributes identity item = false) ∧
          found = ∅ ∨
        ∃ before candidate after, items = before ++ candidate :: after ∧
          identityMatches.holds schema.attributes identity candidate = true ∧
          (∀ item ∈ after, identityMatches.holds schema.attributes identity item = false) ∧
          found = Response.present schema.toDeclaration identity candidate ∧
          identityMatches.holds schema.attributes identity (.ofDict found) = true) := by
  have regular := ObjectSchema.regular_of_mem_builtins hschema
  obtain ⟨texts, valid⟩ := Ensure.valid_of_validate regular hvalidate
  have hwanted : schema.toDeclaration.isWanted identity =
      identityMatches.holds schema.attributes identity := by
    funext candidate
    simp only [isWanted, regular.matched, Option.all_some]
  refine ⟨_, result_find hreply hfault, ?_⟩
  unfold Response.object
  rw [hresult, hwanted]
  rcases Response.select_cases (identityMatches.holds schema.attributes identity) items with
    ⟨hnone, hselect⟩ | ⟨before, candidate, after, hitems, hmatches, hafter, hselect⟩
  · rw [hselect]
    exact .inl ⟨hnone, Response.present_null (ObjectSchema.responseHook_of_mem_builtins hschema)⟩
  · rw [hselect]
    have hcandidate : candidate.HasDistinctKeys := hkeys candidate (by simp [hitems])
    exact .inr ⟨before, candidate, after, hitems, hmatches, hafter, rfl,
      identityMatches_present hschema valid.spells hcandidate hmatches⟩

/-- A request for the service "HTTP/web". -/
def webService : DesiredState :=
  { DesiredState.ofState .present false with
    identity := .ofList [("krbcanonicalname", .scalar (.str "HTTP/web"))] }

/-- A search for a part of a name finds more than was asked for, and a text has no name at all. -/
def webCandidates : List Json :=
  [.str "HTTP/web",
    .obj [("krbcanonicalname", .arr [.str "http/WEB"]),
      ("krbprincipalname", .arr [.str "http/WEB", .str "HTTP/www"])],
    .obj [("krbcanonicalname", .arr [.str "HTTP/web2"])]]

def webBody : Json := .obj [("result", .obj [("result", .arr webCandidates)])]

def webFound : RemoteObject :=
  .ofList [("krbcanonicalname", .str "http/WEB"), ("krbprincipalname", .arr [.str "HTTP/www"])]

theorem find_returns_last_webService :
    (Exchange.run Transport.scripted (ObjectSchema.service.find webService.identity)
        [.ok webBody]).1.result = .ok webFound ∧
      identityMatches.holds ObjectSchema.service.attributes webService.identity
        (.ofDict webFound) = true := by
  have hvalidate : Ensure.validate ObjectSchema.service.toDeclaration webService =
      .ok webService.identity := by
    decide +kernel
  have hread : ∀ item ∈ webCandidates, item.canonical = item := by decide +kernel
  have hkeys : ∀ item ∈ webCandidates, item.HasDistinctKeys := fun item hitem ↦
    hread item hitem ▸ Json.hasDistinctKeys_canonical item
  have hfound : (Exchange.run Transport.scripted (ObjectSchema.service.find webService.identity)
      [.ok webBody]).1.result = .ok webFound := by
    decide +kernel
  obtain ⟨found, hrun, hcases⟩ := find_returns_last (by simp [ObjectSchema.builtins]) hvalidate
    Transport.scripted [.ok webBody] rfl (by decide +kernel) rfl hkeys
  obtain rfl := Except.ok.inj (hrun.symm.trans hfound)
  rcases hcases with ⟨-, hempty⟩ | ⟨_, _, _, -, -, -, -, hmatches⟩
  · exact absurd hempty (by decide +kernel)
  · exact ⟨hfound, hmatches⟩

end Declaration

namespace FindPredicate

/-- Two candidates with values apart for an attribute of the identity are both taken for the
requested object exactly if no value is requested for this attribute, which must be a list then, and
both carry what is requested for the others. -/
theorem identityMatches_both_iff {schema : ObjectSchema} {desired : DesiredState}
    {identity : Identity} (hvalidate : Ensure.validate schema.toDeclaration desired = .ok identity)
    {spec : AttributeSpec} (hspec : spec ∈ schema.identityAttributes) {first second raw raw' : Json}
    {value value' : AttrValue} (hraw : first.get? spec.responseKey = some raw)
    (hvalue : spec.canonical raw = .ok value) (hraw' : second.get? spec.responseKey = some raw')
    (hvalue' : spec.canonical raw' = .ok value')
    (hapart : ∀ v ∈ value.values, ∀ w ∈ value'.values, v.sameName w = false) :
    identityMatches.holds schema.attributes identity first = true ∧
        identityMatches.holds schema.attributes identity second = true ↔
      identity.get? spec.name = some (.list []) ∧
        ∀ name wanted, identity.get? name = some wanted → name ≠ spec.name →
          carries schema.attributes first name wanted = true ∧
            carries schema.attributes second name wanted = true := by
  have hnamed : AttributeSpec.named? schema.attributes spec.name = some spec :=
    (Declaration.named?_eq_some_iff schema.names_nodup).2
      ⟨(Declaration.mem_identityAttributes.1 hspec).1, rfl⟩
  simp only [identityMatches_iff]
  constructor
  · rintro ⟨hfirst, hsecond⟩
    obtain ⟨asked, hasked, -⟩ := Ensure.get?_identity schema.names_nodup hvalidate hspec
    obtain ⟨found, hfound, hwanted⟩ := (carries_iff hnamed).1 (hfirst _ _ hasked) raw hraw
    obtain ⟨found', hfound', hwanted'⟩ := (carries_iff hnamed).1 (hsecond _ _ hasked) raw' hraw'
    cases Except.ok.inj (hfound.symm.trans hvalue)
    cases Except.ok.inj (hfound'.symm.trans hvalue')
    refine ⟨eq_nil_of_apart hapart hwanted hwanted' ▸ hasked, fun name wanted hget _ ↦ ?_⟩
    exact ⟨hfirst name wanted hget, hsecond name wanted hget⟩
  · rintro ⟨hempty, hothers⟩
    have hboth (name : String) (wanted : AttrValue) (hget : identity.get? name = some wanted) :
        carries schema.attributes first name wanted = true ∧
          carries schema.attributes second name wanted = true := by
      by_cases hname : name = spec.name
      · subst hname
        cases Option.some.inj (hempty.symm.trans hget)
        exact ⟨carries_nil hnamed hraw hvalue, carries_nil hnamed hraw' hvalue'⟩
      · exact hothers name wanted hget hname
    exact ⟨fun name wanted hget ↦ (hboth name wanted hget).1,
      fun name wanted hget ↦ (hboth name wanted hget).2⟩

/-- The names by which a host is told apart within its realm. -/
def hostNames : AttributeSpec := { AttributeSpec.list "alias" with identity := true, actions := .every }

def host : ObjectSchema where
  toDeclaration := { Declaration.ofName "host" with
    attributes := [
      AttributeSpec.identityKey "realm",
      hostNames,
      AttributeSpec.scalar "description"]
    findPredicate := some .identityMatches }
  accepted := by decide +kernel

/-- A request that names the realm alone. -/
def anyHost : DesiredState :=
  { DesiredState.ofState .absent false with
    identity := .ofList [("alias", .list []), ("realm", .scalar (.str "lab"))] }

def webHost : Json := .obj [("alias", .arr [.str "web"]), ("realm", .arr [.str "lab"])]

def mailHost : Json := .obj [("alias", .arr [.str "mail"]), ("realm", .arr [.str "lab"])]

theorem identityMatches_both_iff_anyHost :
    identityMatches.holds host.attributes anyHost.identity webHost = true ∧
      identityMatches.holds host.attributes anyHost.identity mailHost = true := by
  have hvalidate : Ensure.validate host.toDeclaration anyHost = .ok anyHost.identity := by
    decide +kernel
  have hspec : hostNames ∈ host.identityAttributes := List.mem_filter.2 ⟨by simp [host], rfl⟩
  have hweb : hostNames.canonical (.arr [.str "web"]) = .ok (.list [.str "web"]) := rfl
  have hmail : hostNames.canonical (.arr [.str "mail"]) = .ok (.list [.str "mail"]) := rfl
  have hrealm : ∀ entry ∈ anyHost.identity.entries, entry.1 ≠ hostNames.name →
      carries host.attributes webHost entry.1 entry.2 = true ∧
        carries host.attributes mailHost entry.1 entry.2 = true := by
    decide +kernel
  apply (identityMatches_both_iff hvalidate hspec rfl hweb rfl hmail (by decide +kernel)).2
  refine ⟨by decide +kernel, fun name wanted hget hname ↦ ?_⟩
  exact hrealm (name, wanted) (anyHost.identity.mem_entries_iff.2 hget) hname

end FindPredicate

end DirectoryReconcile
