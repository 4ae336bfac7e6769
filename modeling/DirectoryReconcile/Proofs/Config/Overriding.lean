import DirectoryReconcile.Proofs.Config.Layers
import DirectoryReconcile.Proofs.Text.Integer
import DirectoryReconcile.Proofs.Text.LowerCase
import Mathlib.Data.List.Forall2

/-!
# Overriding all settings or none

What the text of a variable must be like to say a value is told here without the functions that
read it. The variables of an environment override the settings below if each of them says a value.
If some do not, nothing is overridden, and the variables that are reported are these. Only texts are
read: a variable that is set to other bytes is neither used nor reported.
-/

namespace DirectoryReconcile.Config

/-! ## Texts that say a value -/

/-- A text is a number between two bounds, with blanks around it. -/
def SaysBetween (least greatest : Nat) (text : String) : Prop :=
  ∃ n, Text.IsNumeral (Text.trim text) n ∧ least ≤ n ∧ n ≤ greatest

/-- The texts that a variable for a setting may be set to. -/
def Setting.Says : Setting → String → Prop
  | .host, _ | .user, _ | .password, _ | .passwordFile, _ => True
  | .scheme, text => ∃ word ∈ ["http", "https"], Text.sameIgnoringCase text word
  | .port, text => SaysBetween 1 65535 text
  | .timeout, text => SaysBetween 1 3600 text
  | .validateCerts, text =>
    ∃ word ∈ ["1", "true", "yes", "on", "", "0", "false", "no", "off"],
      Text.sameIgnoringCase (Text.trim text) word
  | .logLevel, text => ∃ word ∈ ["trace", "debug", "info", "warn", "error", "off"],
      Text.sameIgnoringCase (Text.trim text) word

theorem choice_eq_ok_iff {choices : List String} {text word : String} :
    Override.choice choices text = .ok word ↔ word ∈ choices ∧ Text.lower text = word := by
  unfold Override.choice
  split
  next h =>
    constructor
    · intro heq
      obtain rfl := Except.ok.inj heq
      exact ⟨h, rfl⟩
    · rintro ⟨-, rfl⟩
      rfl
  next h =>
    refine iff_of_false nofun ?_
    rintro ⟨hmem, rfl⟩
    exact h hmem

theorem lower_eq_word_iff (text : String) {word : String} (h : word ∈ ["http", "https"]) :
    Text.lower text = word ↔ Text.sameIgnoringCase text word = true := by
  have hplain : ∀ word ∈ ["http", "https"],
      word.toList.all (fun w ↦ Text.LowerCase.IsPlain w) ∧ Text.lowerAscii word = word := by
    decide
  obtain ⟨hword, hlower⟩ := hplain word h
  rw [Text.lower_eq_iff fun w hw ↦ of_decide_eq_true (List.all_eq_true.1 hword w hw),
    Text.sameIgnoringCase, decide_eq_true_iff, hlower]

theorem exists_scheme?_iff (text : String) :
    (∃ scheme, Overlay.scheme? text = .ok scheme) ↔
      ∃ word ∈ ["http", "https"], Text.sameIgnoringCase text word := by
  constructor
  · rintro ⟨_, h⟩
    obtain ⟨word, hword, -⟩ := bind_eq_ok.1 h
    obtain ⟨hmem, hlower⟩ := choice_eq_ok_iff.1 hword
    exact ⟨word, hmem, (lower_eq_word_iff text hmem).1 hlower⟩
  · rintro ⟨word, hmem, h⟩
    have hword := choice_eq_ok_iff.2 ⟨hmem, (lower_eq_word_iff text hmem).2 h⟩
    exact ⟨_, bind_eq_ok.2 ⟨word, hword, rfl⟩⟩

theorem bounded_eq_ok_iff {least greatest : Nat} {text : String} {n : Nat}
    (hgreatest : greatest < Nat.pow 2 64) : Override.bounded least greatest text = .ok n ↔
      Text.IsNumeral (Text.trim text) n ∧ least ≤ n ∧ n ≤ greatest := by
  have hread : Override.bounded least greatest text = .ok n ↔
      (Text.parseNat? (Text.trim text)).filter (· < Nat.pow 2 64) = some n ∧
        least ≤ n ∧ n ≤ greatest := by
    unfold Override.bounded
    cases (Text.parseNat? (Text.trim text)).filter (· < Nat.pow 2 64) with
    | none => simp
    | some m =>
      simp only [← Bool.decide_and, decide_eq_true_iff, Option.some.injEq]
      split
      next hbounds =>
        rw [Except.ok.injEq]
        exact ⟨fun heq ↦ ⟨heq, heq ▸ hbounds⟩, And.left⟩
      next hbounds =>
        exact iff_of_false nofun fun ⟨heq, h⟩ ↦ hbounds (heq ▸ h)
  rw [hread, Option.filter_eq_some_iff, decide_eq_true_iff, Text.parseNat?_eq_some_iff]
  -- A number between the bounds has at most 64 bits.
  exact ⟨fun ⟨⟨hparse, _⟩, h⟩ ↦ ⟨hparse, h⟩,
    fun ⟨hparse, h⟩ ↦ ⟨⟨hparse, Nat.lt_of_le_of_lt h.2 hgreatest⟩, h⟩⟩

theorem exists_bounded_iff {least greatest : Nat} (hgreatest : greatest < Nat.pow 2 64)
    (text : String) :
    (∃ n, Override.bounded least greatest text = .ok n) ↔ SaysBetween least greatest text :=
  exists_congr fun _ ↦ bounded_eq_ok_iff hgreatest

theorem exists_flag_iff (text : String) : (∃ b, Override.flag text = .ok b) ↔
    ∃ word ∈ ["1", "true", "yes", "on", "", "0", "false", "no", "off"],
      Text.sameIgnoringCase (Text.trim text) word := by
  have hwords : ∀ word ∈ Override.flagWords.map (·.1), Text.lowerAscii word = word := by
    decide
  have hlookup : (∃ b, Override.flag text = .ok b) ↔
      (Override.flagWords.lookup (Text.lowerAscii (Text.trim text))).isSome := by
    unfold Override.flag
    cases Override.flagWords.lookup (Text.lowerAscii (Text.trim text)) <;> simp
  rw [hlookup, List.lookup_isSome_iff]
  change _ ↔ ∃ word ∈ Override.flagWords.map (·.1), _
  simp only [List.mem_map, exists_exists_and_eq_and]
  refine exists_congr fun entry ↦ and_congr_right fun hentry ↦ ?_
  rw [Text.sameIgnoringCase, hwords _ (List.mem_map_of_mem hentry), beq_iff_eq, decide_eq_true_iff]

theorem exists_logLevel_iff (text : String) : (∃ name, Override.logLevel text = .ok name) ↔
    ∃ word ∈ ["trace", "debug", "info", "warn", "error", "off"],
      Text.sameIgnoringCase (Text.trim text) word := by
  have hfind : (∃ name, Override.logLevel text = .ok name) ↔ (LogLevel.ofText? text).isSome := by
    unfold Override.logLevel
    cases LogLevel.ofText? text <;> simp
  rw [hfind, LogLevel.ofText?, List.find?_isSome]
  change _ ↔ ∃ word ∈ LogLevel.all.map LogLevel.name, _
  simp only [List.mem_map, exists_exists_and_eq_and]
  exact exists_congr fun level ↦ and_congr_right fun _ ↦
    ⟨Text.sameIgnoringCase_symm, Text.sameIgnoringCase_symm⟩

/-- The text of a variable is read exactly if it says a value. -/
theorem exists_parse_iff (environment : Environment) (setting : Setting) (text : String) :
    (∃ value, setting.parse environment text = .ok value) ↔ setting.Says text := by
  cases setting with
  | host | user | password | passwordFile => exact iff_of_true ⟨_, rfl⟩ trivial
  | scheme => exact exists_scheme?_iff text
  | port =>
    change (∃ n, Override.bounded 1 65535 text = .ok n) ↔ SaysBetween 1 65535 text
    exact exists_bounded_iff (by decide) text
  | timeout =>
    change (∃ n, Override.bounded 1 3600 text = .ok n) ↔ SaysBetween 1 3600 text
    exact exists_bounded_iff (by decide) text
  | validateCerts => exact exists_flag_iff text
  | logLevel => exact exists_logLevel_iff text

/-! ## Variables that are reported -/

/-- The variable for a setting is set to a text that says no value. -/
def Malformed (environment : Environment) (setting : Setting) : Prop :=
  ∃ text, setting.variableText? environment = some text ∧ ¬setting.Says text

/-- Host, user, password and password file take any text. -/
theorem mem_of_malformed {environment : Environment} {setting : Setting}
    (h : Malformed environment setting) :
    setting ∈ [Setting.scheme, .port, .validateCerts, .timeout, .logLevel] := by
  obtain ⟨text, -, hsays⟩ := h
  cases setting with
  | host | user | password | passwordFile => exact absurd trivial hsays
  | scheme | port | validateCerts | timeout | logLevel => decide

/-- An error is about the variable for a setting, the text it is set to and what this text lacks. -/
structure Reports (environment : Environment) (setting : Setting) (error : VariableError) :
    Prop where
  name : error.name = setting.variableName
  text : setting.variableText? environment = some error.text
  complaint : setting.parse environment error.text = .error error.complaint

/-- The settings in the order in which their variables are read. -/
def Setting.inReadingOrder : List Setting :=
  [.host, .scheme, .port, .validateCerts, .timeout, .user, .password, .passwordFile, .logLevel]

theorem errors_eq (overlay : Overlay) : overlay.errors =
    Setting.inReadingOrder.filterMap fun setting ↦ (overlay.reading setting).error? :=
  rfl

theorem forall₂_filterMap {α β : Type} (f : α → Option β) (xs : List α) :
    List.Forall₂ (fun x y ↦ f x = some y) (xs.filter fun x ↦ (f x).isSome) (xs.filterMap f) := by
  induction xs with
  | nil => exact .nil
  | cons x rest ih =>
    cases h : f x with
    | none => simpa [h] using ih
    | some y => simpa [h] using ih

section

variable {environment : Environment} {settings : Settings} {setting : Setting}

theorem error?_eq_some_iff {error : VariableError} :
    ((Overlay.read environment settings).reading setting).error? = some error ↔
      Reports environment setting error := by
  rw [reading_read]
  constructor
  · intro h
    cases hset : environment.get? (Override.variableName setting.variableKey) with
    | none =>
      rw [Override.read_of_unset hset] at h
      cases h
    | some text =>
      cases hparse : setting.parse environment text with
      | ok value =>
        rw [Override.read_of_ok hset hparse] at h
        cases h
      | error complaint =>
        rw [Override.read_of_error hset hparse] at h
        cases h
        have htext := (get?_variableKey environment setting).symm.trans hset
        exact ⟨variableName_variableKey setting, htext, hparse⟩
  · rintro ⟨hname, htext, hcomplaint⟩
    have hset := (get?_variableKey environment setting).trans htext
    rw [Override.read_of_error hset hcomplaint, variableName_variableKey, ← hname]

theorem isSome_error?_iff :
    ((Overlay.read environment settings).reading setting).error?.isSome ↔
      Malformed environment setting := by
  rw [Option.isSome_iff_exists, Malformed]
  constructor
  · rintro ⟨error, h⟩
    obtain ⟨-, htext, hcomplaint⟩ := error?_eq_some_iff.1 h
    refine ⟨error.text, htext, fun hsays ↦ ?_⟩
    obtain ⟨value, hvalue⟩ := (exists_parse_iff environment setting error.text).2 hsays
    cases hcomplaint.symm.trans hvalue
  · rintro ⟨text, hset, hsays⟩
    cases hparse : setting.parse environment text with
    | ok value => exact absurd ((exists_parse_iff environment setting text).1 ⟨value, hparse⟩) hsays
    | error complaint =>
      exact ⟨⟨_, text, complaint⟩, error?_eq_some_iff.2 ⟨rfl, hset, hparse⟩⟩

end

/-- There is one error for each malformed variable. -/
theorem errors_report (environment : Environment) (settings : Settings) :
    ∃ malformed : List Setting, malformed.Nodup ∧
      (∀ setting, setting ∈ malformed ↔ Malformed environment setting) ∧
      List.Forall₂ (Reports environment) malformed (Overlay.read environment settings).errors := by
  refine ⟨Setting.inReadingOrder.filter fun setting ↦
    ((Overlay.read environment settings).reading setting).error?.isSome, ?_, fun setting ↦ ?_, ?_⟩
  · exact .filter _ (by decide : Setting.inReadingOrder.Nodup)
  · have hread : setting ∈ Setting.inReadingOrder := by
      cases setting <;> decide
    rw [List.mem_filter, and_iff_right hread]
    exact isSome_error?_iff
  · rw [errors_eq]
    refine (forall₂_filterMap _ _).imp fun setting error h ↦ ?_
    exact error?_eq_some_iff.1 h

/-- A setting without a variable keeps its value, except that the port goes with the scheme when it
is the one of the scheme and the scheme has a variable. -/
theorem kept_of_unset {environment : Environment} {settings : Settings} {setting : Setting}
    (h : (Overlay.read environment settings).errors = [])
    (hunset : setting.variableText? environment = none) :
    let after := (Overlay.read environment settings).settingsOver settings
    after.get setting = settings.get setting ∨
      setting = .port ∧ (Setting.scheme.variableText? environment).isSome ∧
        settings.port = settings.scheme.port ∧ after.port = after.scheme.port := by
  intro after
  have hvalue := (over_of_unset h hunset ∅).1
  by_cases hsame : (settings.withScheme after.scheme).get setting = settings.get setting
  · exact .inl (hvalue.trans hsame)
  rw [get_withScheme_eq_iff, not_not] at hsame
  obtain ⟨rfl, hfollows, hother⟩ := hsame
  refine .inr ⟨rfl, ?_, hfollows, hvalue.trans (if_pos hfollows)⟩
  by_contra hscheme
  rw [Option.not_isSome_iff_eq_none] at hscheme
  exact hother (over_of_unset h hscheme ∅).1

theorem variableText?_of_text {environment : Environment} {setting : Setting} {text : String}
    (h : environment.bindings.get? setting.variableName = some (.text text)) :
    setting.variableText? environment = some text := by
  rw [Setting.variableText?, h]

/-- The variables of an environment that are set to texts override all their settings, or nothing is
overridden and what is reported is exactly the texts that say no value. A variable that is set to
bytes that are no text is passed over: it is not reported, whatever it is for, and its setting keeps
its value and its source as if it were unset. -/
theorem overlay_all_or_nothing (environment : Environment) (below : Layered) :
    match (Layered.overlay environment).run below with
    | (.error error, after) => after = below ∧
        (∃ setting ∈ [Setting.scheme, .port, .validateCerts, .timeout, .logLevel],
          Malformed environment setting) ∧
        ∃ malformed errors, error = .environment errors ∧ malformed.Nodup ∧
          (∀ setting, setting ∈ malformed ↔ Malformed environment setting) ∧
            List.Forall₂ (Reports environment) malformed errors
    | (.ok (), after) => (∀ setting, ¬Malformed environment setting) ∧
        (∀ name, (∀ setting : Setting, setting.name = name →
            setting.variableText? environment = none) →
          after.sources.get? name = below.sources.get? name) ∧
        ∀ setting : Setting,
          match environment.bindings.get? setting.variableName with
          | some (.text text) => after.sources.get? setting.name = some .environment ∧
              setting.parse environment text = .ok (after.settings.get setting)
          | some (.binary _ _) | none =>
              after.sources.get? setting.name = below.sources.get? setting.name ∧
                (after.settings.get setting = below.settings.get setting ∨
                  setting = .port ∧ (Setting.scheme.variableText? environment).isSome ∧
                    below.settings.port = below.settings.scheme.port ∧
                      after.settings.port = after.settings.scheme.port) := by
  obtain ⟨malformed, hnodup, hmem, hreports⟩ := errors_report environment below.settings
  -- Nothing is written before every variable is read, so the errors decide between all and nothing.
  by_cases herrors : (Overlay.read environment below.settings).errors = []
  · rw [(run_overlay environment below).trans (if_pos (List.isEmpty_iff.2 herrors))]
    have hunset {setting : Setting} (h : setting.variableText? environment = none) :=
      And.intro (over_of_unset herrors h below.sources).2 (kept_of_unset herrors h)
    refine ⟨?_, fun name hname ↦ ?_, fun setting ↦ ?_⟩
    · rw [herrors, List.forall₂_nil_right_iff] at hreports
      subst hreports
      simpa using hmem
    · apply get?_mark_of_not_marked
      intro setting h
      rw [isExplicit_eq, reading_of_unset (hname setting h), Sourced.isBuiltIn_builtIn]
      rfl
    · split
      next text htext =>
        have hset := variableText?_of_text htext
        rcases reading_cases herrors setting with ⟨hnone, -⟩ | ⟨text', value, hset', hparse, hreading⟩
        · cases hset.symm.trans hnone
        · cases hset.symm.trans hset'
          obtain ⟨hvalue, hsource⟩ := over_of_set hreading below.settings below.sources
          exact ⟨hsource, hparse.trans (congrArg Except.ok hvalue.symm)⟩
      next hbinary => exact hunset (by rw [Setting.variableText?, hbinary])
      next hnone => exact hunset (by rw [Setting.variableText?, hnone])
  · rw [(run_overlay environment below).trans (if_neg (mt List.isEmpty_iff.1 herrors))]
    refine ⟨rfl, ?_, malformed, _, rfl, hnodup, hmem, hreports⟩
    cases malformed with
    | nil => exact absurd (List.forall₂_nil_left_iff.1 hreports) herrors
    | cons setting rest =>
      have hmalformed := (hmem setting).1 List.mem_cons_self
      exact ⟨setting, mem_of_malformed hmalformed, hmalformed⟩

/-- The variable for the check of certificates is set to a byte that is no text. -/
def strayByte : Environment :=
  ⟨.ofList [("IPA_VALIDATE_CERTS", .binary ⟨#[0xff]⟩ (by decide +kernel))]⟩

/-- The stray byte is no error, and the setting is the built-in one. -/
theorem overlay_all_or_nothing_strayByte :
    ∃ after, (Layered.overlay strayByte).run .builtIn = (.ok (), after) ∧
      after.settings.validateCerts = true ∧
        after.sources.get? "server.validate_certs" = some .builtIn := by
  have h := overlay_all_or_nothing strayByte .builtIn
  have hother (setting : Setting) : setting.variableText? strayByte = none := by
    cases setting <;> rfl
  cases hrun : (Layered.overlay strayByte).run .builtIn with
  | mk result after =>
    rw [hrun] at h
    cases result with
    | error error =>
      obtain ⟨-, ⟨setting, -, text, htext, -⟩, -⟩ := h
      cases htext.symm.trans (hother setting)
    | ok _ =>
      obtain ⟨-, -, h⟩ := h
      obtain ⟨hsource, hvalue | ⟨hport, -⟩⟩ := h .validateCerts
      · exact ⟨after, rfl, hvalue, hsource⟩
      · cases hport

end DirectoryReconcile.Config
