import CallScript.Proofs.Invariants
import CallScript.Settings.Load

/-!
# Loaded settings and the core they configure

A waiting time is checked twice. Loading settings refuses one that is less than or equal to zero,
and configuring a core asks for one that is greater than zero. On numbers the two checks are the
same, but the value that is not a number passes the first and fails the second
(`Binary64.isPositive_of_isNonPositive`). It can be loaded, since the texts that stand for it are
numerals.

That is the only thing that can go wrong. Whatever the files and the environment hold, loaded
settings have values of the kinds that they should have (`Settings.WellKinded`): what is read from a
file is checked value by value, and every override is checked as well (`Settings.wellKinded_load`).
So unless the waiting time is not a number a core can be configured by them
(`Settings.coreConfig_eq`) and a runner can be made (`Runner.exists_perform_create`).
-/

namespace CallScript

open CallScript.Action

/-- The two checks of a waiting time agree, but for the value that is not a number. -/
theorem Binary64.isPositive_of_isNonPositive {x : Binary64} (h : x.isNonPositive = false) :
    x.isPositive = true ↔ x ≠ .nan := by
  cases x with
  | nan => simp [isPositive]
  | infinite negative => simpa [isPositive, isNonPositive] using h
  | finite negative units magnitude => simpa [isPositive, isNonPositive] using h

/-! ## What loading leaves -/

namespace Settings

/-- **Settings whose values are of the right kinds.** -/
structure WellKinded (s : Settings) : Prop where
  debug : ∃ b, s.debug = .bool b
  timeout : ∃ x, s.timeout = .float x
  logLevel : ∃ level, s.logLevel = .text level
  trace : ∃ b, s.trace = .bool b

theorem wellKinded_default : WellKinded {} := ⟨⟨_, rfl⟩, ⟨_, rfl⟩, ⟨_, rfl⟩, ⟨_, rfl⟩⟩

/-- What is read from a section is of the right kinds, since every value is checked. -/
theorem wellKinded_ofSection {entries : List (Scalar × Value)} {document : Value} {s : Settings}
    (h : ofSection entries document = .ok s) : s.WellKinded := by
  unfold ofSection at h
  obtain ⟨debug, -, h⟩ := bind_eq_ok_iff.mp h
  obtain ⟨timeout, -, h⟩ := bind_eq_ok_iff.mp h
  obtain ⟨level, hlevel, h⟩ := bind_eq_ok_iff.mp h
  obtain ⟨trace, -, h⟩ := bind_eq_ok_iff.mp h
  obtain rfl := Except.ok.inj h
  obtain ⟨text, -, rfl⟩ := map_eq_ok_iff.mp hlevel
  exact ⟨⟨debug, rfl⟩, ⟨timeout, rfl⟩, ⟨Text.lower text, rfl⟩, ⟨trace, rfl⟩⟩

theorem wellKinded_ofFile {w : Workspace} {path : Option Path} {s : Settings}
    (h : ofFile w path = .ok s) : s.WellKinded := by
  cases path with
  | none =>
    obtain rfl := Except.ok.inj h
    exact wellKinded_default
  | some path =>
    obtain ⟨document, -, h⟩ := bind_eq_ok_iff.mp h
    obtain ⟨entries, -, h⟩ := bind_eq_ok_iff.mp h
    exact wellKinded_ofSection h

theorem exists_bool_of_overrideFlag {environment : Table String String} {name : String}
    {present v : Value} (hpresent : ∃ b, present = .bool b)
    (h : overrideFlag environment name present = .ok v) : ∃ b, v = .bool b := by
  unfold overrideFlag at h
  cases hget : environment.get? name with
  | none =>
    rw [hget] at h
    obtain rfl := Except.ok.inj h
    exact hpresent
  | some text =>
    rw [hget] at h
    obtain ⟨b, -, rfl⟩ := map_eq_ok_iff.mp h
    exact ⟨b, rfl⟩

theorem exists_float_of_overrideTimeout {environment : Table String String} {present v : Value}
    (hpresent : ∃ x, present = .float x) (h : overrideTimeout environment present = .ok v) :
    ∃ x, v = .float x := by
  unfold overrideTimeout at h
  cases hfilled : filled? environment timeoutVariable with
  | none =>
    rw [hfilled] at h
    obtain rfl := Except.ok.inj h
    exact hpresent
  | some text =>
    rw [hfilled] at h
    obtain ⟨x, -, rfl⟩ := map_eq_ok_iff.mp h
    exact ⟨x, rfl⟩

theorem exists_text_of_overrideLevel (environment : Table String String) {present : Value}
    (hpresent : ∃ level, present = .text level) :
    ∃ level, overrideLevel environment present = .text level := by
  unfold overrideLevel
  cases filled? environment logLevelVariable with
  | none => exact hpresent
  | some text => exact ⟨Text.lower text, rfl⟩

/-- **Overriding settings keeps their kinds.** -/
theorem WellKinded.override {s t : Settings} (hs : s.WellKinded) {environment : Table String String}
    (h : s.override environment = (t, none)) : t.WellKinded := by
  unfold Settings.override at h
  cases hdebug : overrideFlag environment debugVariable s.debug with
  | error e =>
    rw [hdebug] at h
    cases h
  | ok debug =>
    rw [hdebug] at h
    dsimp only at h
    cases htimeout : overrideTimeout environment s.timeout with
    | error e =>
      rw [htimeout] at h
      cases h
    | ok timeout =>
      rw [htimeout] at h
      dsimp only at h
      cases htrace : overrideFlag environment traceVariable s.trace with
      | error e =>
        rw [htrace] at h
        cases h
      | ok trace =>
        rw [htrace] at h
        obtain rfl := (Prod.mk.inj h).1
        exact ⟨exists_bool_of_overrideFlag hs.debug hdebug,
          exists_float_of_overrideTimeout hs.timeout htimeout,
          exists_text_of_overrideLevel environment hs.logLevel,
          exists_bool_of_overrideFlag hs.trace htrace⟩

/-- **Loaded settings have values of the right kinds**, and their waiting time passes the check of
loading. -/
theorem wellKinded_load {w : Workspace} {explicit : Option Path}
    {environment : Table String String} {s : Settings} (h : load w explicit environment = .ok s) :
    s.WellKinded ∧ isNonPositive s.timeout = false := by
  unfold load at h
  cases hfile : ofFile w (w.locate explicit) with
  | error e =>
    rw [hfile] at h
    cases h
  | ok given =>
    rw [hfile] at h
    dsimp only at h
    obtain ⟨overridden, fault, hoverride⟩ : ∃ t fault, given.override environment = (t, fault) :=
      ⟨_, _, rfl⟩
    rw [hoverride] at h
    cases fault with
    | some e => cases h
    | none =>
      dsimp only at h
      by_cases htimeout : isNonPositive overridden.timeout = true
      · rw [if_pos htimeout] at h
        cases h
      · rw [if_neg htimeout] at h
        obtain rfl := Except.ok.inj h
        exact ⟨(wellKinded_ofFile hfile).override hoverride, eq_false_of_ne_true htimeout⟩

/-! ## The core and the runner that settings ask for -/

/-- **What configuring a core by settings comes to**: only the waiting time can be wrong. -/
theorem coreConfig_eq {s : Settings} {debug : Bool} {timeout : Binary64}
    (hdebug : s.debug = .bool debug) (htimeout : s.timeout = .float timeout) :
    s.coreConfig = if h : timeout.isPositive = true then .ok ⟨debug, timeout, h⟩
      else .error [⟨"timeout", .notPositive⟩] := by
  unfold coreConfig
  rw [hdebug, htimeout]
  let fields : Table String Value :=
    .ofList [(CoreConfig.debugField, .bool debug), (CoreConfig.timeoutField, .float timeout)]
  have hflag : CoreConfig.readField fields CoreConfig.debugField false CoreConfig.readFlag
      = .ok debug := rfl
  have hnumber : CoreConfig.readField fields CoreConfig.timeoutField
      ⟨CoreConfig.defaultTimeout, CoreConfig.isPositive_defaultTimeout⟩ CoreConfig.readPositive
        = if h : timeout.isPositive = true then .ok ⟨timeout, h⟩ else .error .notPositive := rfl
  have hknown : CoreConfig.unknownFields fields = [] := rfl
  show CoreConfig.ofFields fields = _
  rw [CoreConfig.ofFields, hflag, hnumber, hknown]
  by_cases h : timeout.isPositive = true
  · rw [dif_pos h, dif_pos h]
  · rw [dif_neg h, dif_neg h]
    rfl

end Settings

/-- A text always stands for a level. -/
theorem Logger.exists_resolveLevel (methodsOf : Nat → List Scalar) (fallback : Option String)
    (setting : String) : ∃ level, resolveLevel methodsOf fallback (.text setting) = .ok level := by
  unfold resolveLevel
  split <;> exact ⟨_, rfl⟩

theorem Log.perform_configure (setting : Value) (s : Session) :
    (configure setting).perform s
      = match Logger.resolveLevel s.methodsOf s.levelVariable setting with
        | .ok level => (.ok (), { s with logger := s.logger.configure level })
        | .error e => (.error (.foreign e), s) := by
  unfold configure resolveLevel
  rw [perform_bind, perform_bind, perform_get]
  dsimp only
  cases Logger.resolveLevel s.methodsOf s.levelVariable setting <;> rfl

theorem Log.exists_perform_configure (setting : String) (s : Session) :
    ∃ level, (configure (.text setting)).perform s
      = (.ok (), { s with logger := s.logger.configure level }) := by
  obtain ⟨level, hlevel⟩ := Logger.exists_resolveLevel s.methodsOf s.levelVariable setting
  refine ⟨level, ?_⟩
  rw [perform_configure, hlevel]

namespace Runner

theorem exists_levelSetting (s : Session) {settings : Settings}
    (h : ∃ level, settings.logLevel = .text level) :
    ∃ level, levelSetting s settings = .text level := by
  unfold levelSetting
  split
  · exact ⟨"debug", rfl⟩
  · exact h

/-- **Making a runner**: a core that is configured by the settings, an interpreter and the runner
are added to a session, and the log is set up. -/
theorem exists_perform_create {settings : Settings} (hsettings : settings.WellKinded)
    {config : CoreConfig} (hconfig : settings.coreConfig = .ok config) (s : Session) :
    ∃ level, (create none settings).perform s = (.ok s.runners.length,
      { s with
        registries := s.registries ++ [{ config := config }]
        interpreters := s.interpreters ++ [{ core := s.registries.length, trace := settings.trace }]
        runners := s.runners ++ [{ settings := settings, interpreter := s.interpreters.length }]
        logger := s.logger.configure level }) := by
  let made : Session :=
    { s with
      registries := s.registries ++ [{ config := config }]
      interpreters := s.interpreters ++ [{ core := s.registries.length, trace := settings.trace }] }
  obtain ⟨setting, hsetting⟩ := exists_levelSetting made hsettings.logLevel
  obtain ⟨level, hlevel⟩ := Log.exists_perform_configure setting made
  refine ⟨level, ?_⟩
  have hmade : (create none settings).perform s = (do
      Log.configure (levelSetting made settings)
      newRunner { settings := settings, interpreter := s.interpreters.length } :
        Action Nat).perform made := by
    unfold create chooseCore
    rw [hconfig]
    rfl
  rw [hmade, hsetting, perform_bind, hlevel]
  rfl

/-- Settings by which no core can be configured make no runner. -/
theorem perform_create_of_error {settings : Settings} {issues : List FieldIssue}
    (hconfig : settings.coreConfig = .error issues) (s : Session) :
    (create none settings).perform s = (.error (.invalid issues), s) := by
  unfold create chooseCore
  rw [hconfig]
  rfl

end Runner

/-- **When loaded settings can be used.** Settings that were loaded from any workspace, explicit
path and environment have a truth value for the dumps and a number, or the value that is not one, as
waiting time. If it is a number, then the settings configure a core with just these two values, and
a runner can be made by them in any session. If it is not, then the waiting time is refused, and
making a runner raises that and leaves the session as it was. -/
theorem loaded_settings_usable_unless_nan (w : Workspace) (explicit : Option Path)
    (environment : Table String String) (settings : Settings)
    (h : Settings.load w explicit environment = .ok settings) :
    ∃ (debug : Bool) (timeout : Binary64),
      settings.debug = .bool debug ∧ settings.timeout = .float timeout ∧
      (timeout ≠ .nan → ∃ config : CoreConfig, config.debug = debug ∧ config.timeout = timeout ∧
        settings.coreConfig = .ok config ∧
        ∀ s : Session, ∃ level, (Runner.create none settings).perform s = (.ok s.runners.length,
          { s with
            registries := s.registries ++ [{ config := config }]
            interpreters :=
              s.interpreters ++ [{ core := s.registries.length, trace := settings.trace }]
            runners := s.runners ++ [{ settings := settings, interpreter := s.interpreters.length }]
            logger := s.logger.configure level })) ∧
      (timeout = .nan → settings.coreConfig = .error [⟨"timeout", .notPositive⟩] ∧
        ∀ s : Session, (Runner.create none settings).perform s
          = (.error (.invalid [⟨"timeout", .notPositive⟩]), s)) := by
  obtain ⟨hkinds, hpositive⟩ := Settings.wellKinded_load h
  obtain ⟨debug, hdebug⟩ := hkinds.debug
  obtain ⟨timeout, htimeout⟩ := hkinds.timeout
  rw [htimeout] at hpositive
  have hconfig := Settings.coreConfig_eq hdebug htimeout
  refine ⟨debug, timeout, hdebug, htimeout, fun hnumber => ?_, fun hnan => ?_⟩
  · rw [dif_pos ((Binary64.isPositive_of_isNonPositive hpositive).mpr hnumber)] at hconfig
    exact ⟨_, rfl, rfl, hconfig, Runner.exists_perform_create hkinds hconfig⟩
  · rw [hnan] at hconfig
    exact ⟨hconfig, Runner.perform_create_of_error hconfig⟩

/-- An environment that asks for dumps and for waiting without end. -/
def patientEnvironment : Table String String :=
  .ofList [("ZCW_TIMEOUT", "inf"), ("ZCW_DEBUG", "yes")]

/-- The settings that such an environment makes. -/
def patientSettings : Settings := { debug := .bool true, timeout := .float (.infinite false) }

/-- A runner can be made for waiting without end. -/
theorem patientSettings_usable :
    Settings.load {} none patientEnvironment = .ok patientSettings ∧
    ∃ config t, patientSettings.coreConfig = .ok config ∧ config.debug = true ∧
      config.timeout = .infinite false ∧
      (Runner.create none patientSettings).perform {} = (.ok 0, t) ∧
      t.registry 0 = { config := config } := by
  have hload : Settings.load {} none patientEnvironment = .ok patientSettings := rfl
  obtain ⟨debug, timeout, hdebug, htimeout, husable, -⟩ :=
    loaded_settings_usable_unless_nan {} none patientEnvironment patientSettings hload
  obtain rfl := Scalar.bool.inj (Value.scalar.inj hdebug)
  obtain rfl := Scalar.float.inj (Value.scalar.inj htimeout)
  obtain ⟨config, hflag, htime, hconfig, hcreate⟩ := husable (by decide)
  obtain ⟨level, hlevel⟩ := hcreate {}
  exact ⟨hload, config, _, hconfig, hflag, htime, hlevel, rfl⟩

/-- An environment that asks for a waiting time that is not a number. -/
def nanEnvironment : Table String String := .ofList [("ZCW_TIMEOUT", "nan")]

/-- The settings that such an environment makes. -/
def nanSettings : Settings := { timeout := .float .nan }

/-- A waiting time that is not a number can be loaded, but no core can be configured by it and no
runner can be made. -/
theorem nanSettings_not_usable :
    Settings.load {} none nanEnvironment = .ok nanSettings ∧
    nanSettings.coreConfig = .error [⟨"timeout", .notPositive⟩] ∧
    ((Runner.create none nanSettings).perform {}).1
      = .error (.invalid [⟨"timeout", .notPositive⟩]) := by
  have hconfig : nanSettings.coreConfig = .error [⟨"timeout", .notPositive⟩] := rfl
  exact ⟨rfl, hconfig, by rw [Runner.perform_create_of_error hconfig]⟩

end CallScript
