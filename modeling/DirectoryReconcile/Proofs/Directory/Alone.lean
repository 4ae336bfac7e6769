import DirectoryReconcile.Proofs.Directory.Search
import DirectoryReconcile.Proofs.Ensure.Calls
import DirectoryReconcile.Proofs.Exchange

/-!
# One object alone

An exchange that only asks for one object, and only acts on it, runs in a directory as it would in
a world where nothing else exists. The other objects stay as they are.
-/

namespace DirectoryReconcile

/-- The values that the lists of an object may hold: by type, identity and attribute. Spellings of
one identity count as the same. -/
structure Allowance where
  holds : String → List String → String → Scalar → Prop
  congr : ∀ {type : String} {first second : List String}, Entry.sameIdentity first second →
    ∀ name v, holds type first name v → holds type second name v

namespace Directory

open Declaration Operation Entry

/-- The entry of a type with an identity. -/
def focus (directory : Directory) (type : String) (identity : List String) : Option Entry :=
  Entry.focus identity (directory.entriesOf type)

theorem object?_eq (directory : Directory) (type : String) (identity : List String) :
    directory.object? type identity = (directory.focus type identity).map (·.attrs) := rfl

/-- A world with at most one object, as a transport. -/
def alone (faults : Dict InjectedFault) (declaration : Declaration) : Transport (Option Entry) :=
  fun held method params ↦
    match faults.get? method with
    | some (.transport message) => (.error (.transport method message none), held)
    | some (.fault code message) => (.ok (refusalBody ⟨code, "InjectedFault", message⟩), held)
    | none =>
      match ofMethod? declaration method (.ofParams params) with
      | none => (.ok (refusalBody (.unknownCommand method)), held)
      | some operation =>
        match operation.perform declaration held.toList (.ofParams params) with
        | .ok (result, entries) => (.ok (resultBody result), entries.head?)
        | .error refusal => (.ok (refusalBody refusal), held)

/-- A directory of the known types whose entries are told apart and sound. -/
structure Kept (allowance : Allowance) (directory : Directory) : Prop where
  registry : directory.registry = .builtin
  distinct : ∀ schema ∈ ObjectSchema.builtins, Distinct (directory.entriesOf schema.name)
  sound : ∀ schema ∈ ObjectSchema.builtins, ∀ entry ∈ directory.entriesOf schema.name,
    entry.Sound schema.toDeclaration (allowance.holds schema.name entry.identity)

/-- A directory after one object became another one, or none, and nothing else changed. -/
structure Turned (allowance : Allowance) (type : String) (identity : List String)
    (before : Directory) (held : Option Entry) (after : Directory) : Prop where
  kept : after.Kept allowance
  faults : after.faults = before.faults
  own : after.focus type identity = held
  others : ∀ otherType other, otherType ≠ type ∨ ¬sameIdentity identity other →
    after.focus otherType other = before.focus otherType other

variable {allowance : Allowance} {directory : Directory} {schema : ObjectSchema}
  {texts : List String}

theorem Turned.refl (kept : directory.Kept allowance) (type : String) (identity : List String) :
    directory.Turned allowance type identity (directory.focus type identity) directory :=
  ⟨kept, rfl, rfl, fun _ _ _ ↦ rfl⟩

/-- What the calls that a directory received are makes no difference. -/
theorem Turned.receive {type : String} {identity : List String} {held : Option Entry}
    {after : Directory} (method : String) (params : Json)
    (h : (directory.receive method params).Turned allowance type identity held after) :
    directory.Turned allowance type identity held after :=
  ⟨h.kept, h.faults, h.own, h.others⟩

theorem Kept.receive (kept : directory.Kept allowance) (method : String) (params : Json) :
    (directory.receive method params).Kept allowance :=
  ⟨kept.registry, kept.distinct, kept.sound⟩

theorem Kept.sound_focus (kept : directory.Kept allowance) (hschema : schema ∈ ObjectSchema.builtins)
    {entry : Entry} (hentry : entry ∈ directory.focus schema.name texts) :
    entry.Sound schema.toDeclaration (allowance.holds schema.name texts) := by
  have hmem : entry ∈ directory.entriesOf schema.name := List.mem_of_find?_eq_some hentry
  exact (kept.sound schema hschema entry hmem).mono fun name v ↦
    allowance.congr (namedBy_focus texts _ entry hentry) name v

/-- The object in question put back into the directory. -/
theorem turned_put (kept : directory.Kept allowance) (hschema : schema ∈ ObjectSchema.builtins)
    {held : Option Entry} (hnamed : NamedBy texts held)
    (hheld : ∀ entry ∈ held,
      entry.Sound schema.toDeclaration (allowance.holds schema.name texts)) :
    directory.Turned allowance schema.name texts held
      (directory.withEntries schema.name (put texts held (directory.entriesOf schema.name))) := by
  have hdistinct := kept.distinct schema hschema
  refine ⟨⟨kept.registry, fun other hother ↦ ?_, fun other hother entry hentry ↦ ?_⟩, rfl, ?_, ?_⟩
  · rw [entriesOf_withEntries]
    split
    · exact distinct_put hdistinct hnamed
    · exact kept.distinct other hother
  · rw [entriesOf_withEntries] at hentry
    split at hentry
    next heq =>
      obtain rfl := ObjectSchema.eq_of_name_eq hschema hother heq
      rcases mem_put hentry with hself | hentry
      · refine (hheld entry hself).mono fun name v ↦ allowance.congr ?_ name v
        exact sameIdentity_symm (hnamed entry hself)
      · exact kept.sound schema hschema entry hentry
    next => exact kept.sound other hother entry hentry
  · unfold focus
    rw [entriesOf_withEntries, if_pos rfl]
    exact focus_put_self hdistinct hnamed
  · intro otherType other hapart
    rw [focus, focus, entriesOf_withEntries]
    split
    next heq =>
      subst heq
      exact focus_put_other hnamed (hapart.resolve_left fun h ↦ h rfl) _
    next => rfl

/-- Writing the entries of a type back as they are turns no object. -/
theorem turned_same (kept : directory.Kept allowance) (hschema : schema ∈ ObjectSchema.builtins)
    (texts : List String) :
    directory.Turned allowance schema.name texts (directory.focus schema.name texts)
      (directory.withEntries schema.name (directory.entriesOf schema.name)) := by
  have hput := turned_put kept hschema (namedBy_focus texts (directory.entriesOf schema.name))
    fun entry hentry ↦ kept.sound_focus hschema hentry
  rwa [put_focus] at hput

theorem alone_eq (faults : Dict InjectedFault) {declaration : Declaration} (held : Option Entry)
    {call : RemoteCall} {operation : Operation}
    (hoperation : ofMethod? declaration call.method call.arguments = some operation) :
    alone faults declaration held call.method call.params =
      match faults.get? call.method with
      | some (.transport message) => (.error (.transport call.method message none), held)
      | some (.fault code message) => (.ok (refusalBody ⟨code, "InjectedFault", message⟩), held)
      | none =>
        match operation.perform declaration held.toList call.arguments with
        | .ok (result, entries) => (.ok (resultBody result), entries.head?)
        | .error refusal => (.ok (refusalBody refusal), held) := by
  unfold alone
  rw [RemoteCall.ofParams_params]
  simp only [hoperation]

/-- The search reports the only object, if there is one. -/
theorem object_search_toList {declaration : Declaration} (regular : declaration.Regular)
    {identity : Identity} (spells : declaration.Spells identity texts) {held : Option Entry}
    (hnamed : NamedBy texts held) {allowed : String → Scalar → Prop}
    (hheld : ∀ entry ∈ held, entry.Sound declaration allowed) :
    Response.object declaration (declaration.isWanted identity) identity
        (resultBody (search declaration held.toList (declaration.findCall identity).arguments)) =
      Response.present declaration identity ((held.map (render declaration)).getD .null) := by
  have hdistinct : Distinct held.toList := by
    cases held with
    | none => exact .nil
    | some entry => exact List.pairwise_singleton _ entry
  have hsound : ∀ entry ∈ held.toList, entry.Sound declaration allowed := fun entry hentry ↦
    hheld entry (Option.mem_toList.1 hentry)
  rw [object_search regular spells hdistinct hsound, focus_toList hnamed]

/-- A call about one object is answered as if there was no other, and touches no other. -/
theorem post_concerns (kept : directory.Kept allowance) (hschema : schema ∈ ObjectSchema.builtins)
    {call : RemoteCall}
    (hcall : Ensure.Concerns schema.toDeclaration texts (allowance.holds schema.name texts) call) :
    (directory.post call.method call.params).1 =
        (alone directory.faults schema.toDeclaration (directory.focus schema.name texts)
          call.method call.params).1 ∧
      directory.Turned allowance schema.name texts
        (alone directory.faults schema.toDeclaration (directory.focus schema.name texts)
          call.method call.params).2 (directory.post call.method call.params).2 := by
  have hregular := ObjectSchema.regular_of_mem_builtins hschema
  obtain ⟨operation, hoperation, hfind, hidentity, hwrites⟩ := hcall
  have hkept := kept.receive call.method call.params
  have hstays := (Turned.refl hkept schema.name texts).receive
  have hsame := (turned_same hkept hschema texts).receive
  have hid : identityOf schema.toDeclaration call.arguments.positional = .ok texts := hidentity
  rw [post_eq kept.registry hschema hoperation, alone_eq directory.faults _ hoperation]
  cases directory.faults.get? call.method with
  | some fault => cases fault <;> exact ⟨rfl, hstays⟩
  | none =>
    have hperform : operation.perform schema.toDeclaration (directory.entriesOf schema.name)
        call.arguments = (operation.perform schema.toDeclaration
          (directory.focus schema.name texts).toList call.arguments).map
            (backInto texts (directory.entriesOf schema.name)) := perform_focus hfind hid
    simp only [hperform]
    cases hdone : operation.perform schema.toDeclaration
        (directory.focus schema.name texts).toList call.arguments with
    | error refusal => exact ⟨rfl, hsame⟩
    | ok done =>
      have hsound : ∀ entry ∈ directory.focus schema.name texts,
          entry.Sound schema.toDeclaration (allowance.holds schema.name texts) :=
        fun entry hentry ↦ (kept.sound_focus hschema hentry)
      obtain ⟨hnamed, hheld⟩ :=
        perform_sound hregular hfind hid hwrites (namedBy_focus texts _) hsound hdone
      exact ⟨rfl, (turned_put hkept hschema hnamed hheld).receive⟩

/-- Two replies to a search that report the same object, or are the same. -/
def SameFind (declaration : Declaration) (identity : Identity) (reply reply' : Reply) : Prop :=
  reply = reply' ∨ ∃ body body', reply = .ok body ∧ reply' = .ok body' ∧
    Response.fault? declaration.methods.find body = none ∧
    Response.fault? declaration.methods.find body' = none ∧
    Response.object declaration (declaration.isWanted identity) identity body =
      Response.object declaration (declaration.isWanted identity) identity body'

/-- The search for an object changes nothing, and finds what it would find if there was no other. -/
theorem post_find (kept : directory.Kept allowance) (hschema : schema ∈ ObjectSchema.builtins)
    {identity : Identity} (spells : schema.toDeclaration.Spells identity texts)
    {call : RemoteCall} (hcall : call = schema.toDeclaration.findCall identity) :
    SameFind schema.toDeclaration identity (directory.post call.method call.params).1
        (alone directory.faults schema.toDeclaration (directory.focus schema.name texts)
          call.method call.params).1 ∧
      (alone directory.faults schema.toDeclaration (directory.focus schema.name texts)
        call.method call.params).2 = directory.focus schema.name texts ∧
      directory.Turned allowance schema.name texts (directory.focus schema.name texts)
        (directory.post call.method call.params).2 := by
  have hregular := ObjectSchema.regular_of_mem_builtins hschema
  have hkept := kept.receive call.method call.params
  have hstays := (Turned.refl hkept schema.name texts).receive
  have hmethod : call.method = schema.toDeclaration.methods.find := by rw [hcall]; rfl
  have hoperation : ofMethod? schema.toDeclaration call.method call.arguments = some .find := by
    rw [hmethod, ofMethod?_find]
  rw [post_eq kept.registry hschema hoperation, alone_eq directory.faults _ hoperation]
  cases directory.faults.get? call.method with
  | some fault => cases fault <;> exact ⟨.inl rfl, rfl, hstays⟩
  | none =>
    simp only [perform_find]
    have hsound : ∀ entry ∈ directory.entriesOf schema.name,
        entry.Sound schema.toDeclaration fun _ _ ↦ True := fun entry hentry ↦
      (kept.sound schema hschema entry hentry).mono fun _ _ _ ↦ trivial
    have hfound : ∀ entry ∈ directory.focus schema.name texts,
        entry.Sound schema.toDeclaration (allowance.holds schema.name texts) := fun entry hentry ↦
      kept.sound_focus hschema hentry
    have hnamed : NamedBy texts (directory.focus schema.name texts) := namedBy_focus texts _
    refine ⟨.inr ⟨_, _, rfl, rfl, Response.fault?_resultBody _ _, Response.fault?_resultBody _ _, ?_⟩,
      Option.head?_toList, (turned_same hkept hschema texts).receive⟩
    rw [hcall, object_search hregular spells (kept.distinct schema hschema) hsound,
      object_search_toList hregular spells hnamed hfound]
    rfl

end Directory

end DirectoryReconcile
