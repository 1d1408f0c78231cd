import CallScript.Proofs.LoadedSettings
import CallScript.Proofs.RegistryHistory
import CallScript.Proofs.RejectedSources

/-!
# Setting up the log, over a whole session

The family of loggers is shared by all runners of a session. Its level is written by whoever sets up
the log, makes a runner or turns the dumps of a runner on or off, and each of them may fail.
Whatever the order of these steps, the log is set up once: there is at most one handler, and exactly
one once the log was set up or a runner was made (`Logger.Sound`, `LogStep.sound_run`). From then on
a record is handled once or not at all (`Logger.Ready.records_log`).

A step that sets the level asks for one by a rule of its own (`LogStep.Asks`). What one step does to
the logger is said once (`LogStep.logger_after`): a step that fails leaves it alone, and so does a
change of the environment variable. So the level is the one that the last successful step asked for,
since the steps behind it have no effect on the logger (`LogStep.logger_run_of_not_happens`).
-/

namespace CallScript

open CallScript.Action

variable {s t : Session}

/-! ## Levels -/

/-- **The level of a name**, in any case of letters. An unknown name stands for information. -/
inductive Logger.Named (name : String) : Nat → Prop
  | known {level : Nat} (h : (Text.lower name, level) ∈
      [("debug", 10), ("info", 20), ("warn", 30), ("warning", 30), ("error", 40)]) :
      Named name level
  | unknown (h : Text.lower name ∉ ["debug", "info", "warn", "warning", "error"]) : Named name 20

/-- Every name has a level, that of information if it is unknown. -/
theorem Logger.named_levelOfName (name : String) : Named name (levelOfName name) := by
  unfold levelOfName
  cases hlookup : levels.lookup (Text.lower name) with
  | some level =>
    obtain ⟨before, after, hlevels, -⟩ := List.lookup_eq_some_iff.mp hlookup
    refine .known ?_
    show (Text.lower name, level) ∈ levels
    rw [hlevels]
    exact List.mem_append_right _ List.mem_cons_self
  | none =>
    rw [List.lookup_eq_none_iff] at hlookup
    refine .unknown fun hmem => ?_
    have hnames : ["debug", "info", "warn", "warning", "error"] = levels.map (·.1) := rfl
    rw [hnames] at hmem
    obtain ⟨entry, hentry, heq⟩ := List.mem_map.mp hmem
    exact absurd (hlookup entry hentry) (by simp [heq])

theorem Logger.Named.pos {name : String} {level : Nat} (h : Named name level) : 0 < level := by
  cases h with
  | known h =>
    simp only [List.mem_cons, Prod.mk.injEq, List.not_mem_nil, or_false] at h
    obtain ⟨-, rfl⟩ | ⟨-, rfl⟩ | ⟨-, rfl⟩ | ⟨-, rfl⟩ | ⟨-, rfl⟩ := h <;> decide
  | unknown h => decide

namespace Session

/-- **The level that a setting asks for**: that of the name in it, or, if it counts as false, that
of the name in the environment variable, and without one that of information. -/
inductive SettingAsks (s : Session) (setting : Value) : Nat → Prop
  | named {name : String} {level : Nat} (hname : setting.text? = some name) (hne : name ≠ "")
      (h : Logger.Named name level) : SettingAsks s setting level
  | fallen {level : Nat} (hfalse : s.truthy setting = false)
      (h : Logger.Named (s.levelVariable.getD "info") level) : SettingAsks s setting level

/-- **The level that the settings of a runner ask for**: the lowest if dumps are on, or else that of
the setting for the level. -/
inductive SettingsAsk (s : Session) (settings : Settings) : Nat → Prop
  | debug (h : s.truthy settings.debug = true) : SettingsAsk s settings 10
  | level {level : Nat} (hdebug : s.truthy settings.debug = false)
      (h : s.SettingAsks settings.logLevel level) : SettingsAsk s settings level

theorem SettingAsks.pos {setting : Value} {level : Nat} (h : s.SettingAsks setting level) :
    0 < level := by
  cases h with
  | named hname hne h => exact h.pos
  | fallen hfalse h => exact h.pos

theorem SettingsAsk.pos {settings : Settings} {level : Nat} (h : s.SettingsAsk settings level) :
    0 < level := by
  cases h with
  | debug h => decide
  | level hdebug h => exact h.pos

/-- A level that is resolved is the one that the setting asks for. -/
theorem settingAsks_of_resolveLevel {setting : Value} {level : Nat}
    (h : Logger.resolveLevel s.methodsOf s.levelVariable setting = .ok level) :
    s.SettingAsks setting level := by
  unfold Logger.resolveLevel at h
  split at h
  · next hcounts =>
    split at h
    · next name hname =>
      obtain rfl := Except.ok.inj h
      refine .named hname ?_ (Logger.named_levelOfName name)
      rintro rfl
      rw [Value.counts_of_text? hname] at hcounts
      cases hcounts
    · cases h
  · next hcounts =>
    obtain rfl := Except.ok.inj h
    exact .fallen (Bool.eq_false_iff.mpr hcounts) (Logger.named_levelOfName _)

/-- Settings whose level is resolved by the rule of a runner ask for that level. -/
theorem settingsAsk_of_resolveLevel {settings : Settings} {level : Nat}
    (h : Logger.resolveLevel s.methodsOf s.levelVariable (Runner.levelSetting s settings)
      = .ok level) : s.SettingsAsk settings level := by
  unfold Runner.levelSetting at h
  split at h
  · next hdebug =>
    have hname : Logger.levelOfName "debug" = 10 := by decide +kernel
    have hlevel : Logger.resolveLevel s.methodsOf s.levelVariable (.text "debug") = .ok 10 := by
      rw [← hname]
      rfl
    rw [hlevel] at h
    obtain rfl := Except.ok.inj h
    exact .debug hdebug
  · next hdebug => exact .level (Bool.eq_false_iff.mpr hdebug) (settingAsks_of_resolveLevel h)

end Session

/-! ## What sets a level -/

/-- A level is set only if it can be resolved. -/
theorem Log.perform_setLevel (setting : Value) (s : Session) :
    (setLevel setting).perform s
      = match Logger.resolveLevel s.methodsOf s.levelVariable setting with
        | .ok level => (.ok (), { s with logger := { s.logger with level := level } })
        | .error e => (.error (.foreign e), s) := by
  unfold setLevel resolveLevel
  rw [perform_bind, perform_bind, perform_get]
  dsimp only
  cases Logger.resolveLevel s.methodsOf s.levelVariable setting <;> rfl

namespace Runner

/-- A new registry without methods makes no difference to which values count as true. -/
theorem methodsOf_append (s : Session) (config : CoreConfig) :
    ({ s with registries := s.registries ++ [{ config := config }] } : Session).methodsOf
      = s.methodsOf := by
  funext id
  unfold Session.methodsOf Session.registry
  dsimp only
  by_cases hid : id < s.registries.length
  · rw [List.getElem?_append_left hid]
  · rw [List.getElem?_append_right (not_lt.mp hid), List.getElem?_eq_none (not_lt.mp hid)]
    cases id - s.registries.length <;> rfl

/-- Setting up the log and then making a runner, once there are a core and an interpreter. -/
theorem logger_create_of_made {made : Session} (hmethods : made.methodsOf = s.methodsOf)
    (hvariable : made.levelVariable = s.levelVariable) (hlogger : made.logger = s.logger)
    (settings : Settings) (r : Runner) {o : Except Raised Nat} {t : Session}
    (h : (do Log.configure (levelSetting made settings); newRunner r : Action Nat).perform made
      = (o, t)) :
    (∃ e, o = .error e ∧ t.logger = s.logger) ∨
      ∃ id level, o = .ok id ∧ s.SettingsAsk settings level ∧
        t.logger = s.logger.configure level := by
  have hsetting : levelSetting made settings = levelSetting s settings := by
    unfold levelSetting Session.truthy
    rw [hmethods]
  rw [perform_bind, Log.perform_configure, hsetting, hmethods, hvariable] at h
  cases hresolve : Logger.resolveLevel s.methodsOf s.levelVariable (levelSetting s settings) with
  | error e =>
    rw [hresolve] at h
    obtain ⟨rfl, rfl⟩ := Prod.mk.inj h
    exact .inl ⟨_, rfl, hlogger⟩
  | ok level =>
    rw [hresolve] at h
    obtain ⟨rfl, rfl⟩ := Prod.mk.inj h
    refine .inr ⟨_, level, rfl, Session.settingsAsk_of_resolveLevel hresolve, ?_⟩
    exact congrArg (·.configure level) hlogger

/-- **Making a runner sets up the log, or fails and leaves the logger alone.** -/
theorem logger_create {core : Option Nat} {settings : Settings} {o : Except Raised Nat}
    (h : (create core settings).perform s = (o, t)) :
    (∃ e, o = .error e ∧ t.logger = s.logger) ∨
      ∃ id level, o = .ok id ∧ s.SettingsAsk settings level ∧
        t.logger = s.logger.configure level := by
  cases core with
  | some id =>
    let made : Session :=
      { s with interpreters := s.interpreters ++ [{ core := id, trace := settings.trace }] }
    have hmethods : made.methodsOf = s.methodsOf := rfl
    exact logger_create_of_made hmethods rfl rfl settings _ h
  | none =>
    cases hconfig : settings.coreConfig with
    | error issues =>
      rw [perform_create_of_error hconfig] at h
      obtain ⟨rfl, rfl⟩ := Prod.mk.inj h
      exact .inl ⟨_, rfl, rfl⟩
    | ok config =>
      unfold create chooseCore at h
      rw [hconfig] at h
      let made : Session :=
        { s with
          registries := s.registries ++ [{ config := config }]
          interpreters :=
            s.interpreters ++ [{ core := s.registries.length, trace := settings.trace }] }
      have hmethods : made.methodsOf = s.methodsOf := methodsOf_append s config
      exact logger_create_of_made hmethods rfl rfl settings _ h

/-- **Turning dumps on or off sets the level, or fails and leaves the logger alone.** -/
theorem logger_setDebug {id : Nat} {enabled : Value} {o : Except Raised Unit}
    (h : (setDebug id enabled).perform s = (o, t)) :
    (∃ e, o = .error e ∧ t.logger = s.logger) ∨
      ∃ level, o = .ok () ∧ s.SettingsAsk { (s.runner id).settings with debug := enabled } level ∧
        t.logger = { s.logger with level := level } := by
  let settings : Settings := { (s.runner id).settings with debug := enabled }
  let switched := s.setRunner id { s.runner id with settings := settings }
  have hset : (setDebug id enabled).perform s
      = (Log.setLevel (levelSetting s settings)).perform switched := rfl
  rw [hset, Log.perform_setLevel, show switched.methodsOf = s.methodsOf from rfl,
    show switched.levelVariable = s.levelVariable from rfl] at h
  cases hresolve : Logger.resolveLevel s.methodsOf s.levelVariable (levelSetting s settings) with
  | error e =>
    rw [hresolve] at h
    obtain ⟨rfl, rfl⟩ := Prod.mk.inj h
    exact .inl ⟨_, rfl, rfl⟩
  | ok level =>
    rw [hresolve] at h
    obtain ⟨rfl, rfl⟩ := Prod.mk.inj h
    exact .inr ⟨level, rfl, Session.settingsAsk_of_resolveLevel hresolve, rfl⟩

end Runner

/-! ## Steps of an embedding program -/

/-- **What an embedding program does to the log**: it sets it up, makes a runner, turns the dumps of
a runner on or off, or changes the environment variable. -/
inductive LogStep where
  | configure (setting : Value)
  | create (core : Option Nat) (settings : Settings)
  | setDebug (runner : Nat) (enabled : Value)
  | setVariable (name : Option String)

namespace LogStep

/-- Performs a step. -/
def perform : LogStep → Action Unit
  | configure setting => Log.configure setting
  | create core settings => do
    let _ ← Runner.create core settings
  | setDebug runner enabled => Runner.setDebug runner enabled
  | setVariable name => modify fun s => { s with levelVariable := name }

/-- The session after a step, whether it succeeds or not. -/
def after (s : Session) (step : LogStep) : Session := (step.perform.perform s).2

/-- The session after some steps. -/
def run (s : Session) (steps : List LogStep) : Session := steps.foldl after s

/-- A step that succeeds. -/
def Succeeds (s : Session) (step : LogStep) : Prop := (step.perform.perform s).1 = .ok ()

/-- Whether a step sets the level, if it succeeds. -/
def sets : LogStep → Bool
  | setVariable _ => false
  | _ => true

/-- Whether a step installs a handler where there is none, if it succeeds. -/
def installs : LogStep → Bool
  | configure _ => true
  | create _ _ => true
  | _ => false

/-- **The level that a step asks for.** The dumps of a runner are turned on or off before its
settings are asked. -/
inductive Asks (s : Session) : LogStep → Nat → Prop
  | configure {setting : Value} {level : Nat} (h : s.SettingAsks setting level) :
      Asks s (.configure setting) level
  | create {core : Option Nat} {settings : Settings} {level : Nat}
      (h : s.SettingsAsk settings level) : Asks s (.create core settings) level
  | setDebug {runner : Nat} {enabled : Value} {level : Nat}
      (h : s.SettingsAsk { (s.runner runner).settings with debug := enabled } level) :
      Asks s (.setDebug runner enabled) level

theorem Asks.pos {step : LogStep} {level : Nat} (h : step.Asks s level) : 0 < level := by
  cases h with
  | configure h => exact h.pos
  | create h => exact h.pos
  | setDebug h => exact h.pos

/-- A step that sets the level and succeeds. -/
def Sets (s : Session) (step : LogStep) : Prop := step.sets = true ∧ step.Succeeds s

/-- A step that sets up the log and succeeds. -/
def Installs (s : Session) (step : LogStep) : Prop := step.installs = true ∧ step.Succeeds s

/-- The logger after a step has set its level. -/
def written (step : LogStep) (level : Nat) (l : Logger) : Logger :=
  if step.installs then l.configure level else { l with level := level }

theorem level_written (step : LogStep) (level : Nat) (l : Logger) :
    (step.written level l).level = level := by
  unfold written Logger.configure
  split
  · split <;> rfl
  · rfl

/-- **What a step does to the logger.** A step that fails leaves it alone, and so does a change of
the environment variable. Any other sets the level that it asks for. -/
theorem logger_after (s : Session) (step : LogStep) :
    (¬ step.Sets s ∧ (step.after s).logger = s.logger) ∨
      step.Sets s ∧ ∃ level, step.Asks s level ∧
        (step.after s).logger = step.written level s.logger := by
  unfold Sets Succeeds after
  cases step with
  | configure setting =>
    rw [perform, Log.perform_configure]
    cases hresolve : Logger.resolveLevel s.methodsOf s.levelVariable setting with
    | error e => exact .inl ⟨fun h => (nomatch h.2), rfl⟩
    | ok level =>
      exact .inr ⟨⟨rfl, rfl⟩, level, .configure (Session.settingAsks_of_resolveLevel hresolve), rfl⟩
  | create core settings =>
    rw [perform, perform_bind]
    cases hcreate : (Runner.create core settings).perform s with
    | mk o t =>
      obtain ⟨e, rfl, hlogger⟩ | ⟨id, level, rfl, hasks, hlogger⟩ := Runner.logger_create hcreate
      · exact .inl ⟨fun h => (nomatch h.2), hlogger⟩
      · exact .inr ⟨⟨rfl, rfl⟩, level, .create hasks, hlogger⟩
  | setDebug runner enabled =>
    rw [perform]
    cases hset : (Runner.setDebug runner enabled).perform s with
    | mk o t =>
      obtain ⟨e, rfl, hlogger⟩ | ⟨level, rfl, hasks, hlogger⟩ := Runner.logger_setDebug hset
      · exact .inl ⟨fun h => (nomatch h.2), hlogger⟩
      · exact .inr ⟨⟨rfl, rfl⟩, level, .setDebug hasks, hlogger⟩
  | setVariable name => exact .inl ⟨fun h => (nomatch h.1), rfl⟩

/-- A step that sets no level leaves the logger alone. -/
theorem logger_of_not_sets {step : LogStep} (h : ¬ step.Sets s) :
    (step.after s).logger = s.logger := by
  obtain ⟨-, hlogger⟩ | ⟨hsets, -⟩ := logger_after s step
  · exact hlogger
  · exact absurd hsets h

/-- A step that sets a level sets the one it asks for. -/
theorem exists_asks {step : LogStep} (h : step.Sets s) :
    ∃ level, step.Asks s level ∧ (step.after s).logger = step.written level s.logger := by
  obtain ⟨hsets, -⟩ | ⟨-, hasks⟩ := logger_after s step
  · exact absurd h hsets
  · exact hasks

theorem Installs.sets {step : LogStep} (h : step.Installs s) : step.Sets s := by
  refine ⟨?_, h.2⟩
  have hinstalls := h.1
  cases step with
  | setVariable name => cases hinstalls
  | _ => rfl

end LogStep

/-! ## Loggers that are set up -/

namespace Logger

/-- **A logger that is set up**: its one handler sees each record, and nobody else does. -/
structure Ready (l : Logger) : Prop where
  handlers : l.handlers = 1
  propagate : l.propagate = false
  level : 0 < l.level

/-- A logger that is set up, or has no handler yet. -/
def Sound (l : Logger) : Prop := l.handlers = 0 ∨ l.Ready

/-- **Setting up a sound logger makes it ready**: there is one handler then, and nothing is passed
on. -/
theorem Sound.configure {l : Logger} (h : l.Sound) {level : Nat} (hlevel : 0 < level) :
    (l.configure level).Ready := by
  unfold Logger.configure
  split
  · exact ⟨rfl, rfl, hlevel⟩
  · next hhandlers =>
    obtain hnone | hready := h
    · exact absurd hnone hhandlers
    · exact ⟨hready.handlers, hready.propagate, hlevel⟩

/-- A logger that is ready stays so, whatever level is set. -/
theorem Ready.written {l : Logger} (h : l.Ready) {level : Nat} (hlevel : 0 < level)
    (step : LogStep) : (step.written level l).Ready := by
  unfold LogStep.written
  split
  · exact Sound.configure (.inr h) hlevel
  · exact ⟨h.handlers, h.propagate, hlevel⟩

/-- A record that a logger which is set up lets through is handled once: by the handler of the
family, and by none around it. -/
theorem Ready.outlets_eq {l : Logger} (h : l.Ready) : l.outlets = 1 := by
  unfold outlets
  rw [h.handlers, h.propagate]
  rfl

/-- A level that was set is positive, so it alone decides which records are let through. -/
theorem Ready.passes_eq {l : Logger} (h : l.Ready) {r : Record} (hr : inFamily r.logger = true) :
    l.passes r = decide ((l.level : Int) ≤ r.level) := by
  have hlevel := h.level
  unfold passes effectiveLevel
  rw [hr, if_neg (Nat.pos_iff_ne_zero.mp hlevel), Bool.true_and, Bool.eq_iff_iff,
    Bool.and_eq_true, decide_eq_true_iff, decide_eq_true_iff]
  omega

/-- **A logger that is set up handles a record once, or not at all.** -/
theorem Ready.records_log (h : s.logger.Ready) {r : Record} (hr : inFamily r.logger = true) :
    (s.log r).records
      = if (s.logger.level : Int) ≤ r.level then s.records ++ [r] else s.records := by
  unfold Session.log copies
  simp only [h.passes_eq hr, h.outlets_eq, decide_eq_true_eq]
  split
  · rfl
  · exact List.append_nil _

end Logger

/-! ## Runs -/

namespace LogStep

/-- **That a step of some kind is among the steps of a run.** -/
def Happens (P : Session → LogStep → Prop) (s : Session) (steps : List LogStep) : Prop :=
  ∃ earlier step later, steps = earlier ++ step :: later ∧ P (run s earlier) step

theorem happens_cons {P : Session → LogStep → Prop} {step : LogStep} {steps : List LogStep}
    (h : P s step ∨ Happens P (step.after s) steps) : Happens P s (step :: steps) := by
  obtain h | ⟨earlier, step', later, rfl, h⟩ := h
  · exact ⟨[], step, steps, rfl, h⟩
  · exact ⟨step :: earlier, step', later, rfl, h⟩

theorem run_append (s : Session) (earlier : List LogStep) (step : LogStep) (later : List LogStep) :
    run s (earlier ++ step :: later) = run (step.after (run s earlier)) later := by
  unfold run
  rw [List.foldl_append, List.foldl_cons]

/-- A step leaves the log set up, or without a handler. -/
theorem sound_after (h : s.logger.Sound) (step : LogStep) : (step.after s).logger.Sound := by
  obtain ⟨-, hlogger⟩ | ⟨-, level, hasks, hlogger⟩ := logger_after s step
  · rwa [hlogger]
  · rw [hlogger]
    obtain hnone | hready := h
    · -- without a handler only the steps that set up the log make it ready
      unfold written
      split
      · exact .inr (Logger.Sound.configure (.inl hnone) hasks.pos)
      · exact .inl hnone
    · exact .inr (hready.written hasks.pos step)

/-- **A run installs at most one handler.** -/
theorem sound_run (h : s.logger.Sound) (steps : List LogStep) : (run s steps).logger.Sound := by
  induction steps generalizing s with
  | nil => exact h
  | cons step steps ih => exact ih (sound_after h step)

/-- **A log that is set up stays so**, whatever steps follow. -/
theorem ready_run (h : s.logger.Ready) (steps : List LogStep) : (run s steps).logger.Ready := by
  induction steps generalizing s with
  | nil => exact h
  | cons step steps ih =>
    refine ih ?_
    obtain ⟨-, hlogger⟩ | ⟨-, level, hasks, hlogger⟩ := logger_after s step
    · rwa [hlogger]
    · rw [hlogger]
      exact h.written hasks.pos step

/-- **A step that sets up the log makes it ready.** -/
theorem Installs.ready {step : LogStep} (h : step.Installs s) (hs : s.logger.Sound) :
    (step.after s).logger.Ready := by
  obtain ⟨level, hasks, hlogger⟩ := exists_asks h.sets
  rw [hlogger, written, if_pos h.1]
  exact hs.configure hasks.pos

/-- Without a step that sets up the log no handler is installed. -/
theorem handlers_run_of_not_happens {steps : List LogStep} (h : ¬ Happens Installs s steps) :
    (run s steps).logger.handlers = s.logger.handlers := by
  induction steps generalizing s with
  | nil => rfl
  | cons step steps ih =>
    have hstep : ¬ step.Installs s := fun hstep => h (happens_cons (.inl hstep))
    have hhandlers : (step.after s).logger.handlers = s.logger.handlers := by
      obtain ⟨-, hlogger⟩ | ⟨hsets, level, hasks, hlogger⟩ := logger_after s step
      · rw [hlogger]
      · rw [hlogger, written, if_neg fun hinstalls => hstep ⟨hinstalls, hsets.2⟩]
    rw [← hhandlers]
    exact ih fun hlater => h (happens_cons (.inr hlater))

/-- **Without a step that sets the level the logger is as it was.** -/
theorem logger_run_of_not_happens {steps : List LogStep} (h : ¬ Happens Sets s steps) :
    (run s steps).logger = s.logger := by
  induction steps generalizing s with
  | nil => rfl
  | cons step steps ih =>
    have hstep : ¬ step.Sets s := fun hstep => h (happens_cons (.inl hstep))
    rw [← logger_of_not_sets hstep]
    exact ih fun hlater => h (happens_cons (.inr hlater))

end LogStep

open LogStep in
/-- **Setting up the log, over a whole session.** Let the family of loggers have no handler, and let
an embedding program take any steps that set up the log, make runners, turn their dumps on and off
or change the environment variable, some of which may fail.

There is at most one handler, and there is one exactly if the log was set up or a runner was made.
Then records are not passed on, and a record of the family is handled once if its level is at least
that of the family, and otherwise not at all. The level is the one that the last successful step
that set it asked for; without such a step the logger is as it was. And a step that fails leaves it
so. -/
theorem log_is_set_up_once (s : Session) (hs : s.logger.handlers = 0) (steps : List LogStep) :
    (run s steps).logger.handlers ≤ 1 ∧
    ((run s steps).logger.handlers = 1 ↔ Happens Installs s steps) ∧
    (Happens Installs s steps →
      (run s steps).logger.propagate = false ∧
      ∀ r, Logger.inFamily r.logger = true → ((run s steps).log r).records
        = if ((run s steps).logger.level : Int) ≤ r.level then (run s steps).records ++ [r]
          else (run s steps).records) ∧
    (∀ earlier step later, steps = earlier ++ step :: later → step.Sets (run s earlier) →
      ¬ Happens Sets (step.after (run s earlier)) later →
      step.Asks (run s earlier) (run s steps).logger.level) ∧
    (¬ Happens Sets s steps → (run s steps).logger = s.logger) ∧
    ∀ step : LogStep, ¬ step.Succeeds (run s steps) →
      (step.after (run s steps)).logger = (run s steps).logger := by
  have hready : Happens Installs s steps → (run s steps).logger.Ready := by
    rintro ⟨earlier, step, later, rfl, hinstalls⟩
    rw [run_append]
    exact ready_run (hinstalls.ready (sound_run (.inl hs) earlier)) later
  refine ⟨?_, ⟨fun hone => ?_, fun h => (hready h).handlers⟩, fun h => ?_, ?_,
    logger_run_of_not_happens, fun step hfails => logger_of_not_sets fun h => hfails h.2⟩
  · obtain hnone | hready := sound_run (.inl hs) steps
    · omega
    · exact le_of_eq hready.handlers
  · by_contra hnever
    rw [handlers_run_of_not_happens hnever, hs] at hone
    cases hone
  · exact ⟨(hready h).propagate, fun r hr => (hready h).records_log hr⟩
  · rintro earlier step later rfl hsets hlater
    -- the steps behind the last that set the level leave the logger as that one left it
    obtain ⟨level, hasks, hlogger⟩ := exists_asks hsets
    rw [run_append, logger_run_of_not_happens hlater, hlogger, level_written]
    exact hasks

/-- A session with a core, before anything was logged. -/
def silentSession : Session where
  registries := [{}]

/-- Steps up to a runner whose settings name no level, with its dumps turned on. Of the runners
before it one gets no core, and the other asks for a level by a value that is no text. -/
def restlessSteps : List LogStep :=
  [.create none nanSettings, .create (some 0) { logLevel := .int 5 },
    .setVariable (some "ERROR"), .create (some 0) { logLevel := .text "" },
    .configure (.text "Warning"), .setDebug 0 (.bool true), .setVariable none]

/-- The same, with the dumps turned off again and one more step that fails. -/
def settledSteps : List LogStep :=
  restlessSteps ++ [.setDebug 0 (.bool false), .create none nanSettings]

open LogStep in
/-- In the end the level is that of information, because nothing names another any more. -/
theorem settledSteps_set_up_log_once :
    silentSession.logger.handlers = 0 ∧ Happens Installs silentSession settledSteps ∧
    (run silentSession settledSteps).logger.handlers = 1 ∧
    Asks (run silentSession restlessSteps) (.setDebug 0 (.bool false))
      (run silentSession settledSteps).logger.level ∧
    ((run silentSession settledSteps).log ⟨20, Logger.runner, "shown"⟩).records
      = [⟨20, Logger.runner, "shown"⟩] ∧
    ((run silentSession settledSteps).log ⟨19, Logger.runner, "dropped"⟩).records = [] := by
  have hinstalls : Happens Installs silentSession settledSteps :=
    ⟨restlessSteps.take 4, .configure (.text "Warning"), settledSteps.drop 5, rfl, rfl, rfl⟩
  have hfails : ¬ Happens Sets (after (run silentSession restlessSteps) (.setDebug 0 (.bool false)))
      [.create none nanSettings] := by
    rintro ⟨earlier, step, later, hsteps, -, hsucceeds⟩
    cases earlier with
    | nil =>
      obtain ⟨rfl, -⟩ := List.cons.inj hsteps
      cases hsucceeds
    | cons first earlier => cases earlier <;> cases hsteps
  obtain ⟨-, hhandlers, hrecords, hlevel, -⟩ := log_is_set_up_once silentSession rfl settledSteps
  refine ⟨rfl, hinstalls, hhandlers.mpr hinstalls, ?_, ?_, ?_⟩
  · exact hlevel restlessSteps _ _ rfl ⟨rfl, rfl⟩ hfails
  · rw [(hrecords hinstalls).2 _ (by decide)]
    rfl
  · rw [(hrecords hinstalls).2 _ (by decide)]
    rfl

end CallScript
