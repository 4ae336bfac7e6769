import DirectoryReconcile.Proofs.Config.Sources
import DirectoryReconcile.Proofs.Text.Blank

/-!
# Where the password comes from

A password that the configuration file states is taken before any password file is looked at, even
if a variable names that file. Only without one does the password come from the file of the
variable.
-/

namespace DirectoryReconcile.Config

/-! ## Password files -/

/-- What a file says as a password: its text up to the line ends at its end, unless the file cannot
be read or has nothing but line ends. -/
inductive PasswordIn (files : Files) (path : String) : Except Error String → Prop
  | unreadable (unread : files.readText? path = none) :
      PasswordIn files path (.error (.unreadable path))
  | missing {text : String} (read : files.readText? path = some text)
      (ends : ∀ c ∈ text.toList, Settings.isLineEnd c) :
      PasswordIn files path (.error .noPassword)
  | found {text password : String} {ends : List Char} (read : files.readText? path = some text)
      (cut : text.toList = password.toList ++ ends) (ends : ∀ c ∈ ends, Settings.isLineEnd c)
      (nonempty : password.toList ≠ [])
      (last : ¬Settings.isLineEnd (password.toList.getLast nonempty)) :
      PasswordIn files path (.ok password)

theorem passwordIn_eq_iff {files : Files} {path : String} {result : Except Error String} :
    Settings.passwordIn files path = result ↔ PasswordIn files path result := by
  unfold Settings.passwordIn
  constructor
  · rintro rfl
    split
    next hread => exact .unreadable hread
    next text hread =>
      obtain ⟨⟨ends, hcut, hends⟩, hlast⟩ := Text.dropEndWhile_eq_iff.1
        (String.toList_ofList (l := Text.dropEndWhile Settings.isLineEnd text.toList)).symm
      simp only
      split
      next hempty =>
        rw [hempty] at hcut
        exact .missing hread (hcut ▸ hends)
      next hnonempty =>
        have hne := mt String.toList_eq_nil_iff.1 hnonempty
        exact .found hread hcut hends hne (hlast hne)
  · intro h
    cases h with
    | unreadable unread => simp only [unread]
    | @missing text read ends =>
      have hpassword : Text.dropEndWhile Settings.isLineEnd text.toList = [] :=
        Text.dropEndWhile_eq_iff.2 ⟨⟨text.toList, rfl, ends⟩, (absurd rfl ·)⟩
      simp only [read, hpassword, String.ofList_nil, if_true]
    | found read cut ends nonempty last =>
      have hpassword := Text.dropEndWhile_eq_iff.2 ⟨⟨_, cut, ends⟩, fun _ ↦ last⟩
      simp only [read, hpassword, String.ofList_toList]
      exact if_neg (mt String.toList_eq_nil_iff.2 nonempty)

/-! ## The password of a loaded configuration -/

/-- The configuration file that was read states a password. -/
def StatesPassword (files : Files) (config : Config) (password : String) : Prop :=
  ∃ path document settings, config.file = some path ∧ Reads files path document settings ∧
    settings.password = some password

variable {files : Files} {environment : Environment} {path? : Option String} {config : Config}

/-- Without a variable, the password of a configuration is the one that the file states. -/
theorem password_eq_some_iff (hload : load files environment path? = .ok config)
    (hunset : Setting.password.variableText? environment = none) (password : String) :
    config.settings.password = some password ↔ StatesPassword files config password := by
  rcases setting_of_load hload .password with ⟨text, hset, -⟩ | ⟨-, below, hlayers, hvalue, -⟩
  · cases hset.symm.trans hunset
  have hbelow : config.settings.password = below.settings.password := hvalue
  rw [hbelow]
  rcases readLayers_eq_ok hlayers with ⟨rfl, hfile⟩ | ⟨path, document, settings, hfile, hreads, rfl⟩
  · refine iff_of_false nofun ?_
    rintro ⟨path, document, settings, hfile', -⟩
    cases hfile.symm.trans hfile'
  · constructor
    · intro hpassword
      exact ⟨path, document, settings, hfile, hreads, hpassword⟩
    · rintro ⟨path', document', settings', hfile', hreads', hpassword⟩
      cases hfile.symm.trans hfile'
      obtain ⟨-, rfl⟩ := hreads.unique hreads'
      exact hpassword

theorem passwordFile_of_load {text : String} (hload : load files environment path? = .ok config)
    (hset : Setting.passwordFile.variableText? environment = some text) (hne : text ≠ "") :
    config.settings.passwordFile = some (PathExpansion.expand environment text) := by
  rcases setting_of_load hload .passwordFile with ⟨text', hset', hparse, -⟩ | ⟨hunset, -⟩
  · cases hset.symm.trans hset'
    exact (Except.ok.inj hparse).symm.trans (if_neg hne)
  · cases hset.symm.trans hunset

/-- A variable that names a password file decides the password, by the text of that file alone, only
if the configuration file states no password. One that it states is the password. The path is
expanded when the variable is read, and again when the file is looked at. -/
theorem resolvePassword_of_load {text : String} (hload : load files environment path? = .ok config)
    (hunset : Setting.password.variableText? environment = none)
    (hset : Setting.passwordFile.variableText? environment = some text) (hne : text ≠ "") :
    (∀ password, StatesPassword files config password →
      config.settings.resolvePassword environment files = .ok password) ∧
    ((∀ password, ¬StatesPassword files config password) → ∀ result,
      config.settings.resolvePassword environment files = result ↔
        PasswordIn files
          (PathExpansion.expand environment (PathExpansion.expand environment text)) result) := by
  constructor
  · intro password hstates
    unfold Settings.resolvePassword
    rw [(password_eq_some_iff hload hunset password).2 hstates]
  · intro hstates result
    have hpassword : config.settings.password = none := by
      refine Option.eq_none_iff_forall_ne_some.2 fun password h ↦ hstates password ?_
      exact (password_eq_some_iff hload hunset password).1 h
    unfold Settings.resolvePassword
    rw [hpassword, passwordFile_of_load hload hset hne]
    exact passwordIn_eq_iff

/-- A file that states a password. -/
def lockedText : String := "[auth]\npassword = \"filepw\"\n"

def lockedFiles : Files := .ofList [("c.toml", .text lockedText), ("pw.txt", .text "hunter2\n")]

theorem lockedFiles_reads : ∃ document settings, Reads lockedFiles "c.toml" document settings ∧
    settings.password = some "filepw" := by
  obtain ⟨document, hdocument, h⟩ := Option.map_eq_some_iff.1
    (by decide +kernel : (Toml.read? lockedText).map Settings.ofDocument? =
      some (some { Settings.builtIn with password := some "filepw" }))
  have htext : lockedFiles.readText? "c.toml" = some lockedText := by decide +kernel
  exact ⟨document, _, ⟨lockedText, htext, hdocument, h⟩, rfl⟩

def lockedEnvironment : Environment := .ofList [("IPA_PASS_FILE", "pw.txt")]

/-- The variable names a file with the password `hunter2`, and the password is another one. -/
theorem resolvePassword_of_load_lockedFiles :
    ∃ config, load lockedFiles lockedEnvironment (some "c.toml") = .ok config ∧
      config.settings.resolvePassword lockedEnvironment lockedFiles = .ok "filepw" ∧
      PasswordIn lockedFiles "pw.txt" (.ok "hunter2") := by
  obtain ⟨config, hload, hfile⟩ := map_eq_ok.1
    (by decide +kernel : (load lockedFiles lockedEnvironment (some "c.toml")).map Config.file =
      .ok (some "c.toml"))
  obtain ⟨document, settings, hreads, hpassword⟩ := lockedFiles_reads
  have hset : Setting.passwordFile.variableText? lockedEnvironment = some "pw.txt" := by
    decide +kernel
  have hresolve := resolvePassword_of_load hload (by decide +kernel) hset (by decide)
  refine ⟨config, hload, ?_, passwordIn_eq_iff.1 (by decide +kernel)⟩
  exact hresolve.1 "filepw" ⟨"c.toml", document, settings, hfile, hreads, hpassword⟩

end DirectoryReconcile.Config
