import DirectoryReconcile.Proofs.Config.Layers

/-!
# When sources tell the truth

The values and the sources of a configuration are found separately. They agree except in two cases.
A file that names the port of its scheme stays the source of the port when a variable changes the
scheme, although the port goes with the scheme. And a file that has an integer of more than 64 bits,
or that gives a section as a list of values without names, is read but is not the source of what it
says there.
-/

namespace DirectoryReconcile.Config

/-- A file has a text that describes a document, which describes settings. -/
def Reads (files : Files) (path : String) (document : Document) (settings : Settings) : Prop :=
  ∃ text, files.readText? path = some text ∧ Toml.read? text = some document ∧
    Settings.ofDocument? document = some settings

/-- What the source of a setting promises about its value. -/
def Truthful (files : Files) (environment : Environment) (config : Config) (setting : Setting) :
    Prop :=
  match config.sources setting with
  | .environment => ∃ text, setting.variableText? environment = some text ∧
      setting.parse environment text = .ok (config.settings.get setting)
  | .file path => ∃ document settings stated, config.file = some path ∧
      Reads files path document settings ∧ stated? document setting = some stated ∧
        setting.decode stated = some (config.settings.get setting)
  | .builtIn => config.settings.get setting = Settings.builtIn.get setting ∨
      setting = .port ∧ config.settings.port = config.settings.scheme.port
  | .commandLine => False

/-- The ways in which the source of a setting misses where its value comes from. -/
inductive Mistaken (files : Files) (environment : Environment) (config : Config) : Setting → Prop
  /-- The file names the port of its scheme, and a variable names another scheme but no port. -/
  | moved {path : String} {document : Document} {settings : Settings}
      (file : config.file = some path) (reads : Reads files path document settings)
      (markable : isMarkable document = true) (stated : (stated? document .port).isSome = true)
      (follows : settings.port = settings.scheme.port)
      (unset : Setting.port.variableText? environment = none)
      (other : config.settings.scheme ≠ settings.scheme) :
      Mistaken files environment config .port
  /-- The file has an integer of more than 64 bits, or it gives the section of the setting as a list
  of values without names, and what it says for the setting is not the built-in value. -/
  | unnamed {path : String} {document : Document} {settings : Settings} {setting : Setting}
      (file : config.file = some path) (reads : Reads files path document settings)
      (hidden : isMarkable document = false ∨
        ∃ items, document.tableField? setting.part.name = some (.list items))
      (unset : setting.variableText? environment = none)
      (other : settings.get setting ≠ Settings.builtIn.get setting)
      (own : setting = .port → config.settings.port ≠ config.settings.scheme.port) :
      Mistaken files environment config setting

variable {files : Files} {environment : Environment} {path? : Option String} {config : Config}

/-! ## What is read from a file -/

theorem Reads.unique {path : String} {document document' : Document} {settings settings' : Settings}
    (h : Reads files path document settings) (h' : Reads files path document' settings') :
    document' = document ∧ settings' = settings := by
  obtain ⟨text, htext, hdocument, hsettings⟩ := h
  obtain ⟨text', htext', hdocument', hsettings'⟩ := h'
  cases htext.symm.trans htext'
  cases hdocument.symm.trans hdocument'
  exact ⟨rfl, Option.some.inj (hsettings'.symm.trans hsettings)⟩

/-- A text describes a table. -/
theorem Reads.isTable {path : String} {document : Document} {settings : Settings}
    (h : Reads files path document settings) : ∃ fields, document = .table fields := by
  obtain ⟨text, -, hdocument, -⟩ := h
  obtain ⟨state, -, hstate⟩ := Option.bind_eq_some_iff.1 hdocument
  exact ⟨_, (Option.some.inj hstate).symm⟩

theorem reads_of_readFile {path : String} {below : Layered}
    (h : readFile files path = .ok below) :
    ∃ document settings, Reads files path document settings ∧
      below = ⟨settings, fileSources document path⟩ := by
  unfold readFile at h
  split at h
  · cases h
  next text htext =>
    split at h
    · cases h
    next document hdocument =>
      split at h
      · cases h
      next settings hsettings =>
        exact ⟨document, settings, ⟨text, htext, hdocument, hsettings⟩, (Except.ok.inj h).symm⟩

theorem readLayers_eq_ok {below : Layered} {file : Option String}
    (h : readLayers files environment path? = .ok (below, file)) :
    (below = .builtIn ∧ file = none) ∨
    ∃ path document settings, file = some path ∧ Reads files path document settings ∧
      below = ⟨settings, fileSources document path⟩ := by
  have hbuiltIn (h : (.ok (.builtIn, none) : Except Error _) = .ok (below, file)) :
      below = .builtIn ∧ file = none :=
    (Prod.mk.inj (Except.ok.inj h)).imp Eq.symm Eq.symm
  unfold readLayers at h
  split at h
  · exact .inl (hbuiltIn h)
  next path _ =>
    split at h
    · obtain ⟨layered, hlayered, heq⟩ := map_eq_ok.1 h
      obtain ⟨rfl, rfl⟩ := Prod.mk.inj heq
      obtain ⟨document, settings, hreads, hbelow⟩ := reads_of_readFile hlayered
      exact .inr ⟨path, document, settings, rfl, hreads, hbelow⟩
    · split at h
      · cases h
      · exact .inl (hbuiltIn h)

/-! ## What the sources promise -/

/-- A file is the source of what it states, and everything else is built in. -/
theorem get?_fileSources (document : Document) (path : String) (setting : Setting) :
    (fileSources document path).get? setting.name =
      if isMarkable document = true ∧ (stated? document setting).isSome = true then
        some (.file path)
      else some .builtIn := by
  simp only [fileSources, get?_mark, get?_builtIn, Bool.and_eq_true]

/-- Every setting of a loaded configuration has a source. -/
theorem isSome_source_of_load (h : load files environment path? = .ok config) (setting : Setting) :
    (config.sources.get? setting.name).isSome := by
  rcases setting_of_load h setting with ⟨_, -, -, hsource⟩ | ⟨-, below, hlayers, -, hsource⟩
  · rw [hsource, Option.isSome_some]
  rw [hsource]
  rcases readLayers_eq_ok hlayers with ⟨rfl, -⟩ | ⟨path, document, settings, -, -, rfl⟩
  · exact Option.isSome_of_eq_some (get?_builtIn setting)
  · rw [get?_fileSources]
    split <;> rfl

section

variable {setting : Setting} {path : String} {document : Document} {settings : Settings}

/-- A document states nothing in a section without names. -/
theorem not_list_of_stated (h : (stated? document setting).isSome = true)
    (items : List Document) :
    document.tableField? setting.part.name ≠ some (.list items) := by
  intro hlist
  simp only [stated?, hlist] at h
  simp [Document.tableField?] at h

/-- A file that says another value than the built-in one without being its source has an integer
that is too long, or a section without names. -/
theorem get_of_not_named (hreads : Reads files path document settings)
    (hnamed : ¬ (isMarkable document = true ∧ (stated? document setting).isSome = true))
    (hother : settings.get setting ≠ Settings.builtIn.get setting) :
    isMarkable document = false ∨
      ∃ items, document.tableField? setting.part.name = some (.list items) := by
  by_contra! hhidden
  obtain ⟨hmarkable, hlist⟩ := hhidden
  obtain ⟨fields, rfl⟩ := hreads.isTable
  obtain ⟨text, -, -, hsettings⟩ := hreads
  have hvalue := get_of_table hsettings hlist
  cases hstated : stated? (.table fields) setting with
  | some stated => exact hnamed ⟨Bool.ne_false_iff.1 hmarkable, by rw [hstated]; rfl⟩
  | none =>
    rw [hstated] at hvalue
    exact hother hvalue

/-- A file is the source of a value if the setting is what it was read as. -/
theorem truthful_iff_of_file (hsource : config.sources setting = .file path)
    (hfile : config.file = some path) (hreads : Reads files path document settings)
    (hstated : (stated? document setting).isSome = true) :
    Truthful files environment config setting ↔
      config.settings.get setting = settings.get setting := by
  obtain ⟨stated, hstated'⟩ := Option.isSome_iff_exists.1 hstated
  have hdecode : setting.decode stated = some (settings.get setting) := by
    have hlist := not_list_of_stated hstated
    obtain ⟨fields, rfl⟩ := hreads.isTable
    obtain ⟨text, -, -, hsettings⟩ := hreads
    simpa only [hstated'] using get_of_table hsettings hlist
  rw [Truthful, hsource]
  constructor
  · rintro ⟨document', settings', stated', -, hreads', hstated'', hdecode'⟩
    obtain ⟨rfl, rfl⟩ := hreads.unique hreads'
    cases hstated'.symm.trans hstated''
    exact Option.some.inj (hdecode'.symm.trans hdecode)
  · intro hvalue
    exact ⟨document, settings, stated, hfile, hreads, hstated', hvalue ▸ hdecode⟩

/-- A value is the built-in one if the layer of the file has the built-in one, or if it is the port
of the scheme. -/
theorem truthful_iff_of_builtIn (hsource : config.sources setting = .builtIn)
    (hvalue : config.settings.get setting =
      (settings.withScheme config.settings.scheme).get setting) :
    Truthful files environment config setting ↔
      settings.get setting = Settings.builtIn.get setting ∨
        setting = .port ∧ config.settings.port = config.settings.scheme.port := by
  rw [Truthful, hsource]
  refine or_congr_left' fun hown ↦ ?_
  rw [hvalue, get_withScheme_of_ne]
  rintro rfl hport
  exact hown ⟨rfl, hvalue.trans hport⟩

end

/-! ## The two mistakes -/

theorem not_mistaken_of_set {setting : Setting} {text : String}
    (h : setting.variableText? environment = some text) :
    ¬ Mistaken files environment config setting := by
  rintro (⟨-, -, -, -, -, hunset, -⟩ | ⟨-, -, -, hunset, -, -⟩)
  all_goals
    rw [h] at hunset
    cases hunset

theorem not_mistaken_of_no_file {setting : Setting} (h : config.file = none) :
    ¬ Mistaken files environment config setting := by
  rintro (⟨hfile, -⟩ | ⟨hfile, -⟩)
  all_goals
    rw [h] at hfile
    cases hfile

/-- What a mistake about a setting without a variable is, given what the file says. -/
theorem mistaken_iff_of_file {setting : Setting} {path : String} {document : Document}
    {settings : Settings} (hfile : config.file = some path)
    (hreads : Reads files path document settings)
    (hunset : setting.variableText? environment = none) :
    Mistaken files environment config setting ↔
      (isMarkable document = true ∧ (stated? document setting).isSome = true) ∧ setting = .port ∧
          settings.port = settings.scheme.port ∧ config.settings.scheme ≠ settings.scheme ∨
        (isMarkable document = false ∨
            ∃ items, document.tableField? setting.part.name = some (.list items)) ∧
          settings.get setting ≠ Settings.builtIn.get setting ∧
            (setting = .port → config.settings.port ≠ config.settings.scheme.port) := by
  constructor
  · rintro (⟨hfile', hreads', hmarkable, hstated, hfollows, -, hother⟩ |
      ⟨hfile', hreads', hhidden, -, hother, hown⟩)
    all_goals
      cases hfile.symm.trans hfile'
      obtain ⟨rfl, rfl⟩ := hreads.unique hreads'
    · exact .inl ⟨⟨hmarkable, hstated⟩, rfl, hfollows, hother⟩
    · exact .inr ⟨hhidden, hother, hown⟩
  · rintro (⟨⟨hmarkable, hstated⟩, rfl, hfollows, hother⟩ | ⟨hhidden, hother, hown⟩)
    · exact .moved hfile hreads hmarkable hstated hfollows hunset hother
    · exact .unnamed hfile hreads hhidden hunset hother hown

/-- A mistake about a setting that the file is the source of is a port that went with the scheme. -/
theorem mistaken_iff_moved {setting : Setting} {path : String} {document : Document}
    {settings : Settings} (hfile : config.file = some path)
    (hreads : Reads files path document settings)
    (hunset : setting.variableText? environment = none)
    (hnamed : isMarkable document = true ∧ (stated? document setting).isSome = true) :
    Mistaken files environment config setting ↔
      setting = .port ∧ settings.port = settings.scheme.port ∧
        config.settings.scheme ≠ settings.scheme := by
  rw [mistaken_iff_of_file hfile hreads hunset, and_iff_right hnamed, or_iff_left]
  rintro ⟨hmarkable | ⟨items, hlist⟩, -⟩
  · cases hmarkable.symm.trans hnamed.1
  · exact not_list_of_stated hnamed.2 items hlist

/-- A mistake about a setting that the file is not the source of is a value that the file says. -/
theorem mistaken_iff_unnamed {setting : Setting} {path : String} {document : Document}
    {settings : Settings} (hfile : config.file = some path)
    (hreads : Reads files path document settings)
    (hunset : setting.variableText? environment = none)
    (hnamed : ¬ (isMarkable document = true ∧ (stated? document setting).isSome = true)) :
    Mistaken files environment config setting ↔
      settings.get setting ≠ Settings.builtIn.get setting ∧
        (setting = .port → config.settings.port ≠ config.settings.scheme.port) := by
  rw [mistaken_iff_of_file hfile hreads hunset, or_iff_right fun h ↦ hnamed h.1]
  exact and_iff_right_of_imp fun h ↦ get_of_not_named hreads hnamed h.1

/-- The source of every setting of a loaded configuration tells the truth, unless the configuration
is mistaken about the setting. -/
theorem load_truthful_iff (h : load files environment path? = .ok config) (setting : Setting) :
    Truthful files environment config setting ↔ ¬ Mistaken files environment config setting := by
  rcases setting_of_load h setting with
    ⟨text, hset, hparse, hsource⟩ | ⟨hunset, below, hlayers, hvalue, hsource⟩
  · refine iff_of_true ?_ (not_mistaken_of_set hset)
    rw [Truthful, of_eq_of_get? hsource]
    exact ⟨text, hset, hparse⟩
  rcases readLayers_eq_ok hlayers with ⟨rfl, hfile⟩ | ⟨path, document, settings, hfile, hreads, rfl⟩
  · refine iff_of_true ?_ (not_mistaken_of_no_file hfile)
    have hbuiltIn := of_eq_of_get? (hsource.trans (get?_builtIn setting))
    exact (truthful_iff_of_builtIn hbuiltIn hvalue).2 (.inl rfl)
  rw [get?_fileSources] at hsource
  by_cases hnamed : isMarkable document = true ∧ (stated? document setting).isSome = true
  · rw [if_pos hnamed] at hsource
    have hpath := of_eq_of_get? hsource
    rw [truthful_iff_of_file hpath hfile hreads hnamed.2, hvalue, get_withScheme_eq_iff,
      mistaken_iff_moved hfile hreads hunset hnamed]
  · rw [if_neg hnamed] at hsource
    have hbuiltIn := of_eq_of_get? hsource
    rw [truthful_iff_of_builtIn hbuiltIn hvalue, mistaken_iff_unnamed hfile hreads hunset hnamed,
      not_and_or, not_not, Classical.not_imp, not_not]

/-- A file that names the port of its scheme. -/
def plainText : String := "[server]\nprotocol = \"http\"\nport = 80\n"

def plainFiles : Files := .ofList [("c.toml", .text plainText)]

def plainSettings : Settings := { Settings.builtIn with scheme := .http, port := 80 }

theorem plainFiles_reads : ∃ document, Reads plainFiles "c.toml" document plainSettings ∧
    isMarkable document = true ∧ (stated? document .port).isSome = true := by
  obtain ⟨document, hdocument, h⟩ := Option.map_eq_some_iff.1
    (by decide +kernel : (Toml.read? plainText).map (fun document ↦
      (Settings.ofDocument? document, isMarkable document, (stated? document .port).isSome)) =
        some (some plainSettings, true, true))
  simp only [Prod.mk.injEq] at h
  obtain ⟨hsettings, hmarkable, hstated⟩ := h
  have htext : plainFiles.readText? "c.toml" = some plainText := by decide +kernel
  exact ⟨document, ⟨plainText, htext, hdocument, hsettings⟩, hmarkable, hstated⟩

theorem load_truthful_iff_plainFiles :
    ∃ config, load plainFiles (.ofList [("IPA_PROT", "https")]) (some "c.toml") = .ok config ∧
      config.sources .port = .file "c.toml" ∧
      ¬ Truthful plainFiles (.ofList [("IPA_PROT", "https")]) config .port := by
  obtain ⟨config, hload, hconfig⟩ := map_eq_ok.1
    (by decide +kernel : (load plainFiles (.ofList [("IPA_PROT", "https")]) (some "c.toml")).map
      (fun config ↦ (config.file, config.settings.scheme, config.sources .port)) =
        .ok (some "c.toml", .https, .file "c.toml"))
  simp only [Prod.mk.injEq] at hconfig
  obtain ⟨hfile, hscheme, hsource⟩ := hconfig
  obtain ⟨document, hreads, hmarkable, hstated⟩ := plainFiles_reads
  refine ⟨config, hload, hsource, ?_⟩
  rw [load_truthful_iff hload, not_not]
  exact .moved hfile hreads hmarkable hstated rfl (by decide +kernel)
    (by simp [hscheme, plainSettings])

end DirectoryReconcile.Config
