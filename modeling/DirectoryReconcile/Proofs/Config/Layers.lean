import DirectoryReconcile.Config
import DirectoryReconcile.Proofs.Dict
import DirectoryReconcile.Proofs.Steps

/-!
# The layers of a configuration, setting by setting

A configuration is read as a whole, with each layer over the one below it. Here a single setting is
followed through the layers: what a file says for it, what its variable says, and which of the two
counts in the end.
-/

namespace DirectoryReconcile

namespace Document

theorem nodup_of_hasRepetition {names : List String} (h : hasRepetition names = false) :
    names.Nodup := by
  induction names with
  | nil => exact .nil
  | cons name rest ih =>
    rw [hasRepetition, Bool.or_eq_false_iff] at h
    exact List.nodup_cons.2 ⟨fun hmem ↦ by simp [hmem] at h, ih h.2⟩

theorem lookupEntry_filter {α : Type} {name : String} {keep : String × α → Bool}
    (hkeep : ∀ value, keep (name, value) = true) (fields : List (String × α)) :
    Dict.lookupEntry name (fields.filter keep) = Dict.lookupEntry name fields := by
  induction fields with
  | nil => rfl
  | cons field rest ih =>
    obtain ⟨key, value⟩ := field
    rw [List.filter_cons]
    by_cases heq : key = name
    · subst heq
      simp [hkeep, Dict.lookupEntry]
    · split <;> simp [Dict.lookupEntry, heq, ih]

/-- A record that is given as a table has the fields of the table. -/
theorem get?_record?_table {dialect : Dialect} {names : List String}
    {fields : List (String × Document)} {known : Dict Document}
    (h : (Document.table fields).record? dialect names = some known) {name : String}
    (hname : name ∈ names) : known.get? name = (Document.table fields).tableField? name := by
  simp only [record?] at h
  split at h
  · simp at h
  next hrepetition =>
    cases Option.some.inj h
    rw [Dict.get?_ofList (nodup_of_hasRepetition (by simpa using hrepetition))]
    exact lookupEntry_filter (fun _ ↦ by simpa using hname) fields

end Document

namespace Config

/-! ## One setting -/

namespace Setting

/-- What a setting is set to. -/
abbrev Value : Setting → Type
  | .host | .user | .logLevel => String
  | .port | .timeout => Nat
  | .scheme => Scheme
  | .validateCerts => Bool
  | .password | .passwordFile => Option String

/-- The variable that overrides a setting. -/
def variableName : Setting → String
  | .host => "IPA_HOST"
  | .scheme => "IPA_PROT"
  | .port => "IPA_PORT"
  | .validateCerts => "IPA_VALIDATE_CERTS"
  | .timeout => "IPA_TIMEOUT_SECS"
  | .user => "IPA_USER"
  | .password => "IPA_PASS"
  | .passwordFile => "IPA_PASS_FILE"
  | .logLevel => "IPA_LOG_LEVEL"

/-- The text that the variable for a setting is set to, if it is set to a text. -/
def variableText? (environment : Environment) (setting : Setting) : Option String :=
  match environment.bindings.get? setting.variableName with
  | some (.text text) => some text
  | some (.binary _ _) | none => none

/-- What is special about the name of the variable that overrides a setting. -/
def variableKey : Setting → String
  | .host => "HOST"
  | .scheme => "PROT"
  | .port => "PORT"
  | .validateCerts => "VALIDATE_CERTS"
  | .timeout => "TIMEOUT_SECS"
  | .user => "USER"
  | .password => "PASS"
  | .passwordFile => "PASS_FILE"
  | .logLevel => "LOG_LEVEL"

/-- The value that the text of a variable says. -/
def parse (environment : Environment) :
    (setting : Setting) → String → Except Complaint setting.Value
  | .host | .user => Override.text
  | .scheme => Overlay.scheme?
  | .port => Override.port
  | .validateCerts => Override.flag
  | .timeout => Override.bounded 1 3600
  | .password => Override.optionalText
  | .passwordFile => Override.optionalPath environment
  | .logLevel => Override.logLevel

/-- The value that a document says. -/
def decode : (setting : Setting) → Document → Option setting.Value
  | .host | .user | .logLevel => Document.text?
  | .port => Document.natural? 65535
  | .scheme => Document.choice? .toml Scheme.ofName?
  | .validateCerts => Document.flag?
  | .timeout => Document.natural? (Nat.pow 2 64 - 1)
  | .password | .passwordFile => fun document ↦ document.text?.map some

end Setting

/-- The value of a setting. -/
def Settings.get (settings : Settings) : (setting : Setting) → setting.Value
  | .host => settings.host
  | .port => settings.port
  | .scheme => settings.scheme
  | .validateCerts => settings.validateCerts
  | .timeout => settings.timeout
  | .user => settings.user
  | .password => settings.password
  | .passwordFile => settings.passwordFile
  | .logLevel => settings.logLevel

/-- What the variables say about a setting. -/
def Overlay.reading (overlay : Overlay) : (setting : Setting) → Reading setting.Value
  | .host => overlay.host
  | .port => overlay.port
  | .scheme => overlay.scheme
  | .validateCerts => overlay.validateCerts
  | .timeout => overlay.timeout
  | .user => overlay.user
  | .password => overlay.password
  | .passwordFile => overlay.passwordFile
  | .logLevel => overlay.logLevel

/-! ## Marking sources -/

theorem name_injective : Function.Injective Setting.name := by
  intro setting setting' h
  cases setting <;> cases setting' <;> first | rfl | exact absurd h (by decide)

section

variable {sources : Sources} {source : Source} {marked : Setting → Bool} {setting : Setting}

theorem get?_mark_of_marked (h : marked setting = true) :
    (sources.mark source marked).get? setting.name = some source := by
  have hmem : setting ∈ Setting.all := by
    cases setting <;> decide
  apply Dict.get?_insertMany_of_mem
  · rw [List.map_map]
    have hnodup : (Setting.all.filter marked).Nodup := .filter _ (by decide : Setting.all.Nodup)
    exact List.pairwise_map.2 (hnodup.imp fun hne hname ↦ hne (name_injective hname))
  · exact List.mem_map.2 ⟨setting, List.mem_filter.2 ⟨hmem, h⟩, rfl⟩

/-- What is not the name of a marked setting keeps its source, if it has one. -/
theorem get?_mark_of_not_marked {name : String}
    (h : ∀ setting : Setting, setting.name = name → marked setting = false) :
    (sources.mark source marked).get? name = sources.get? name := by
  apply Dict.get?_insertMany_of_not_mem
  rw [List.map_map, List.mem_map]
  rintro ⟨setting, hmem, hname⟩
  simp [h setting hname] at hmem

theorem get?_mark (sources : Sources) (source : Source) (marked : Setting → Bool)
    (setting : Setting) : (sources.mark source marked).get? setting.name =
      if marked setting then some source else sources.get? setting.name := by
  split
  next h => exact get?_mark_of_marked h
  next h =>
    refine get?_mark_of_not_marked fun setting' hname ↦ ?_
    rw [name_injective hname]
    simpa using h

theorem get?_builtIn (setting : Setting) :
    Sources.builtIn.get? setting.name = some .builtIn :=
  get?_mark_of_marked rfl

theorem of_eq_of_get? (h : sources.get? setting.name = some source) : sources setting = source := by
  rw [Sources.of, h, Option.getD_some]

end

/-! ## The layer of a file -/

section

variable {document : Document} {settings : Settings}

/-- What a document says for a setting in its section, or else the built-in value. -/
theorem get_of_ofDocument? (h : Settings.ofDocument? document = some settings) :
    ∃ sections, document.record? .toml ["server", "auth", "general"] = some sections ∧
      ∀ setting : Setting, ∃ fields, Settings.sectionFields? sections setting.part = some fields ∧
        Document.fieldOr fields setting.key (Settings.builtIn.get setting) setting.decode =
          some (settings.get setting) := by
  obtain ⟨sections, hsections, h⟩ := Option.bind_eq_some_iff.1 h
  obtain ⟨server, hserver, h⟩ := Option.bind_eq_some_iff.1 h
  obtain ⟨auth, hauth, h⟩ := Option.bind_eq_some_iff.1 h
  obtain ⟨general, hgeneral, h⟩ := Option.bind_eq_some_iff.1 h
  obtain ⟨host, hhost, h⟩ := Option.bind_eq_some_iff.1 h
  obtain ⟨port, hport, h⟩ := Option.bind_eq_some_iff.1 h
  obtain ⟨scheme, hscheme, h⟩ := Option.bind_eq_some_iff.1 h
  obtain ⟨certs, hcerts, h⟩ := Option.bind_eq_some_iff.1 h
  obtain ⟨timeout, htimeout, h⟩ := Option.bind_eq_some_iff.1 h
  obtain ⟨user, huser, h⟩ := Option.bind_eq_some_iff.1 h
  obtain ⟨password, hpassword, h⟩ := Option.bind_eq_some_iff.1 h
  obtain ⟨passwordFile, hpasswordFile, h⟩ := Option.bind_eq_some_iff.1 h
  obtain ⟨logLevel, hlogLevel, h⟩ := Option.bind_eq_some_iff.1 h
  cases Option.some.inj h
  refine ⟨sections, hsections, fun setting ↦ ?_⟩
  cases setting with
  | host => exact ⟨server, hserver, hhost⟩
  | port => exact ⟨server, hserver, hport⟩
  | scheme => exact ⟨server, hserver, hscheme⟩
  | validateCerts => exact ⟨server, hserver, hcerts⟩
  | timeout => exact ⟨server, hserver, htimeout⟩
  | user => exact ⟨auth, hauth, huser⟩
  | password => exact ⟨auth, hauth, hpassword⟩
  | passwordFile => exact ⟨auth, hauth, hpasswordFile⟩
  | logLevel => exact ⟨general, hgeneral, hlogLevel⟩

theorem key_mem (setting : Setting) : setting.key ∈ setting.part.settings.map Setting.key := by
  cases setting <;> decide

theorem part_mem (setting : Setting) : setting.part.name ∈ ["server", "auth", "general"] := by
  cases setting <;> decide

/-- A table says for a setting what it states, or else the built-in value, unless the section of the
setting is a list of values without names. -/
theorem get_of_table {fields : List (String × Document)} {setting : Setting}
    (h : Settings.ofDocument? (.table fields) = some settings)
    (hnamed : ∀ items, (Document.table fields).tableField? setting.part.name ≠ some (.list items)) :
    match stated? (.table fields) setting with
    | some stated => setting.decode stated = some (settings.get setting)
    | none => settings.get setting = Settings.builtIn.get setting := by
  obtain ⟨sections, hsections, hget⟩ := get_of_ofDocument? h
  obtain ⟨values, hvalues, hvalue⟩ := hget setting
  have hsection : sections.get? setting.part.name =
      (Document.table fields).tableField? setting.part.name :=
    Document.get?_record?_table hsections (part_mem setting)
  unfold Settings.sectionFields? Document.fieldOr at hvalues
  rw [hsection] at hvalues
  unfold stated?
  cases hpart : (Document.table fields).tableField? setting.part.name with
  | none =>
    rw [hpart] at hvalues
    cases Option.some.inj hvalues
    exact (Option.some.inj hvalue).symm
  | some part =>
    rw [hpart] at hvalues
    simp only [Option.bind_eq_bind, Option.bind_some]
    cases part with
    | list items => exact absurd hpart (hnamed items)
    | null | flag | integer | real | text => simp [Document.record?] at hvalues
    | table named =>
      have hfield : values.get? setting.key = (Document.table named).tableField? setting.key :=
        Document.get?_record?_table hvalues (key_mem setting)
      unfold Document.fieldOr at hvalue
      rw [hfield] at hvalue
      cases hstated : (Document.table named).tableField? setting.key with
      | none =>
        rw [hstated] at hvalue
        exact (Option.some.inj hvalue).symm
      | some stated =>
        rw [hstated] at hvalue
        exact hvalue

end

/-! ## The layer of the environment -/

section

variable {environment : Environment} {settings : Settings} {setting : Setting}

theorem variableName_variableKey (setting : Setting) :
    Override.variableName setting.variableKey = setting.variableName := by
  cases setting <;> decide

theorem get?_variableKey (environment : Environment) (setting : Setting) :
    environment.get? (Override.variableName setting.variableKey) =
      setting.variableText? environment := by
  rw [variableName_variableKey, Environment.get?, Setting.variableText?]
  cases environment.bindings.get? setting.variableName with
  | none => rfl
  | some held => cases held <;> rfl

theorem reading_read (environment : Environment) (settings : Settings) (setting : Setting) :
    (Overlay.read environment settings).reading setting =
      Override.read environment setting.variableKey (setting.parse environment)
        (settings.get setting) := by
  cases setting <;>
    simp only [Overlay.reading, Overlay.read, Setting.variableKey, Setting.parse, Settings.get]

theorem isExplicit_eq (overlay : Overlay) (setting : Setting) :
    overlay.isExplicit setting = !(overlay.reading setting).sourced.isBuiltIn := by
  cases setting <;> rfl

theorem error?_of_errors {overlay : Overlay} (h : overlay.errors = []) (setting : Setting) :
    (overlay.reading setting).error? = none := by
  rw [Overlay.errors, List.filterMap_eq_nil_iff] at h
  cases setting <;> exact h _ (by simp [Overlay.reading])

theorem reading_of_unset (h : setting.variableText? environment = none) (settings : Settings) :
    (Overlay.read environment settings).reading setting =
      ⟨.builtIn (settings.get setting), none⟩ := by
  rw [reading_read]
  exact Override.read_of_unset ((get?_variableKey environment setting).trans h) _ _

/-- A variable without an error is unset, or it says a value. -/
theorem reading_cases (h : (Overlay.read environment settings).errors = []) (setting : Setting) :
    (setting.variableText? environment = none ∧
      (Overlay.read environment settings).reading setting =
        ⟨.builtIn (settings.get setting), none⟩) ∨
    ∃ text value, setting.variableText? environment = some text ∧
      setting.parse environment text = .ok value ∧
        (Overlay.read environment settings).reading setting =
          ⟨.ofVariable value setting.variableName, none⟩ := by
  have herror := error?_of_errors h setting
  cases hget : setting.variableText? environment with
  | none => exact .inl ⟨rfl, reading_of_unset hget settings⟩
  | some text =>
    rw [← get?_variableKey] at hget
    rw [reading_read] at herror ⊢
    cases hparse : setting.parse environment text with
    | ok value =>
      refine .inr ⟨text, value, rfl, hparse, ?_⟩
      rw [Override.read_of_ok hget hparse, variableName_variableKey]
    | error complaint =>
      rw [Override.read_of_error hget hparse] at herror
      simp at herror

theorem over_of_set {value : setting.Value} {name : String} {overlay : Overlay}
    (h : overlay.reading setting = ⟨.ofVariable value name, none⟩) (settings : Settings)
    (sources : Sources) :
    (overlay.settingsOver settings).get setting = value ∧
      (overlay.sourcesOver sources).get? setting.name = some .environment := by
  have hvalue : (overlay.reading setting).sourced.value = value := by rw [h]; rfl
  have hset : (overlay.reading setting).sourced.isBuiltIn = false := by
    rw [h, Sourced.isBuiltIn_ofVariable]
  constructor
  · cases setting with
    | port =>
      change overlay.port.sourced.isBuiltIn = false at hset
      change overlay.portOver settings = value
      simp only [Overlay.portOver, hset, Bool.and_false, Bool.false_and, Bool.false_eq_true,
        if_false]
      exact hvalue
    | password | passwordFile | user | logLevel | host | scheme | timeout | validateCerts =>
      exact hvalue
  · apply get?_mark_of_marked
    rw [isExplicit_eq, hset, Bool.not_false]

/-- The settings with the port of another scheme, if it was the one of their own scheme. -/
def Settings.withScheme (settings : Settings) (scheme : Scheme) : Settings :=
  { settings with
    port := if settings.port = settings.scheme.port then scheme.port else settings.port }

theorem get_withScheme (hport : setting ≠ .port) (settings : Settings) (scheme : Scheme) :
    (settings.withScheme scheme).get setting = settings.get setting := by
  cases setting with
  | port => exact absurd rfl hport
  | password | passwordFile | user | logLevel | host | scheme | timeout | validateCerts => rfl

theorem port_injective : Function.Injective Scheme.port := by
  intro scheme scheme' h
  cases scheme <;> cases scheme' <;> simp_all [Scheme.port]

/-- Another scheme moves nothing but a port that was the one of the scheme. -/
theorem get_withScheme_eq_iff (settings : Settings) (scheme : Scheme) (setting : Setting) :
    (settings.withScheme scheme).get setting = settings.get setting ↔
      ¬ (setting = .port ∧ settings.port = settings.scheme.port ∧ scheme ≠ settings.scheme) := by
  by_cases hport : setting = .port
  · subst hport
    by_cases hfollows : settings.port = settings.scheme.port
    · simp [Settings.get, Settings.withScheme, hfollows, port_injective.eq_iff]
    · simp [Settings.get, Settings.withScheme, hfollows]
  · simp [get_withScheme hport, hport]

/-- A setting that another scheme moves is the port of that scheme. -/
theorem get_withScheme_of_ne {scheme : Scheme}
    (h : setting = .port → (settings.withScheme scheme).port ≠ scheme.port) :
    (settings.withScheme scheme).get setting = settings.get setting := by
  rw [get_withScheme_eq_iff]
  rintro ⟨hport, hfollows, -⟩
  exact h hport (if_pos hfollows)

/-- A port without a variable goes with the scheme. -/
theorem portOver_of_unset {overlay : Overlay}
    (hport : overlay.port = ⟨.builtIn settings.port, none⟩)
    (hscheme : overlay.scheme.sourced.isBuiltIn = true →
      overlay.scheme.sourced.value = settings.scheme) :
    overlay.portOver settings = (settings.withScheme overlay.scheme.sourced.value).port := by
  unfold Overlay.portOver Settings.withScheme
  cases hset : overlay.scheme.sourced.isBuiltIn with
  | true =>
    rw [hscheme hset, hport]
    by_cases hfollows : settings.port = settings.scheme.port <;> simp [hfollows, Sourced.builtIn]
  | false => simp [hport, Sourced.builtIn, Sourced.isBuiltIn]

theorem over_of_unset (h : (Overlay.read environment settings).errors = [])
    (hunset : setting.variableText? environment = none) (sources : Sources) :
    let overlay := Overlay.read environment settings
    (overlay.settingsOver settings).get setting =
        (settings.withScheme (overlay.settingsOver settings).scheme).get setting ∧
      (overlay.sourcesOver sources).get? setting.name = sources.get? setting.name := by
  have hreading := reading_of_unset hunset settings
  constructor
  · cases setting with
    | port =>
      refine portOver_of_unset hreading fun hbuiltIn ↦ ?_
      rcases reading_cases h .scheme with ⟨-, hscheme⟩ | ⟨text, value, -, -, hscheme⟩
      · exact congrArg (·.sourced.value) hscheme
      · have hset := congrArg (·.sourced.isBuiltIn) hscheme
        rw [Sourced.isBuiltIn_ofVariable] at hset
        cases hbuiltIn.symm.trans hset
    | password | passwordFile | user | logLevel | host | scheme | timeout | validateCerts =>
      exact congrArg (·.sourced.value) hreading
  · rw [Overlay.sourcesOver, get?_mark, isExplicit_eq, hreading, Sourced.isBuiltIn_builtIn,
      Bool.not_true, if_neg Bool.false_ne_true]

end

/-! ## Loading -/

theorem run_overlay (environment : Environment) (below : Layered) :
    (Layered.overlay environment).run below =
      let overlay := Overlay.read environment below.settings
      if overlay.errors.isEmpty then
        (.ok (), ⟨overlay.settingsOver below.settings, overlay.sourcesOver below.sources⟩)
      else (.error (.environment overlay.errors), below) := by
  change (if (Overlay.read environment below.settings).errors.isEmpty then
      set (⟨_, _⟩ : Layered) else throw (.environment _) : ExceptT Error (StateM Layered) Unit).run
        below = _
  by_cases herrors : (Overlay.read environment below.settings).errors.isEmpty = true
  · simp only [if_pos herrors]
    rfl
  · simp only [if_neg herrors]
    rfl

theorem load_eq_ok {files : Files} {environment : Environment} {path? : Option String}
    {config : Config} (h : load files environment path? = .ok config) :
    ∃ below file, readLayers files environment path? = .ok (below, file) ∧
      let overlay := Overlay.read environment below.settings
      overlay.errors = [] ∧ config =
        ⟨overlay.settingsOver below.settings, overlay.sourcesOver below.sources, file⟩ := by
  obtain ⟨⟨below, file⟩, hlayers, h⟩ := bind_eq_ok.1 h
  refine ⟨below, file, hlayers, ?_⟩
  simp only [run_overlay] at h
  split at h
  next herrors =>
    obtain ⟨_, -, h⟩ := bind_eq_ok.1 h
    obtain ⟨_, -, h⟩ := bind_eq_ok.1 h
    exact ⟨List.isEmpty_iff.1 herrors, (Except.ok.inj h).symm⟩
  · cases h

/-- A setting is what its variable says, or else what the layers below the environment say. -/
theorem setting_of_load {files : Files} {environment : Environment} {path? : Option String}
    {config : Config} (h : load files environment path? = .ok config) (setting : Setting) :
    (∃ text, setting.variableText? environment = some text ∧
      setting.parse environment text = .ok (config.settings.get setting) ∧
        config.sources.get? setting.name = some .environment) ∨
    setting.variableText? environment = none ∧
      ∃ below, readLayers files environment path? = .ok (below, config.file) ∧
        config.settings.get setting =
            (below.settings.withScheme config.settings.scheme).get setting ∧
          config.sources.get? setting.name = below.sources.get? setting.name := by
  obtain ⟨below, file, hlayers, herrors, rfl⟩ := load_eq_ok h
  rcases reading_cases herrors setting with ⟨hunset, -⟩ | ⟨text, value, hset, hparse, hreading⟩
  · exact .inr ⟨hunset, below, hlayers, over_of_unset herrors hunset below.sources⟩
  · obtain ⟨hvalue, hsource⟩ := over_of_set hreading below.settings below.sources
    exact .inl ⟨text, hset, hparse.trans (congrArg Except.ok hvalue.symm), hsource⟩

end Config

end DirectoryReconcile
