import CallScript.Proofs.LoadedSettings
import Mathlib.Tactic.Ring

/-!
# Which layer a setting comes from

Each of the four settings has three layers: a variable of the environment, a value in the section of
the document, and a default (`Settings.Layers`). They differ in what counts as present. The variable
of a truth value is consulted when it is set, and the others when they are not empty; a value of the
section is taken when there is one, and that of the log level when it counts as true.

Loading reads the whole section before it consults a variable, so a variable never hides a value
that cannot be read; and what it makes of a setting depends on the layers of that setting alone
(`Settings.load_eq_ofLayers`). A setting is read exactly if all of its layers that are present can
be, and then it is that of the uppermost one (`Settings.Layers.result_eq_ok_iff`).

A log level is read from any value, by its text. Even so it can fail: TOML has integers in base
sixteen, of which one of any length can be read, but not all of them can be written
(`Toml.read_hexLevel`).
-/

namespace CallScript

/-! ## The layers of a setting -/

namespace Settings

/-- **A setting in layers**: the text of its variable and its value in the section, where they are
present, how each is read, and its default. -/
structure Layers (α : Type) where
  text : Option String
  readText : String → Except SettingsError α
  given : Option Value
  readGiven : Value → Except SettingsError α
  fallback : α

namespace Layers

variable {α : Type}

/-- **The layers that are present can be read**, whether or not another lies above. -/
structure Converts (l : Layers α) : Prop where
  given : ∀ v, l.given = some v → ∃ a, l.readGiven v = .ok a
  text : ∀ t, l.text = some t → ∃ a, l.readText t = .ok a

/-- **The value of the uppermost layer** that is present. -/
inductive Resolves (l : Layers α) : α → Prop
  | text {t : String} {a : α} : l.text = some t → l.readText t = .ok a → Resolves l a
  | given {v : Value} {a : α} :
      l.text = none → l.given = some v → l.readGiven v = .ok a → Resolves l a
  | fallback : l.text = none → l.given = none → Resolves l l.fallback

/-- A setting by its section. -/
def ofGiven (l : Layers α) : Except SettingsError α :=
  match l.given with
  | some v => l.readGiven v
  | none => .ok l.fallback

/-- A setting by its variable, if that is consulted. -/
def orText (l : Layers α) (present : α) : Except SettingsError α :=
  match l.text with
  | some t => l.readText t
  | none => .ok present

/-- What becomes of a setting: its section is read first, and its variable after that. -/
def result (l : Layers α) : Except SettingsError α := l.ofGiven >>= l.orText

/-- What a document gives is read exactly if it is missing or can be read. -/
theorem exists_ofGiven_iff {l : Layers α} :
    (∃ a, l.ofGiven = .ok a) ↔ ∀ v, l.given = some v → ∃ a, l.readGiven v = .ok a := by
  unfold ofGiven
  cases l.given with
  | none => exact ⟨fun _ => nofun, fun _ => ⟨l.fallback, rfl⟩⟩
  | some v => exact ⟨fun h v' hv => Option.some.inj hv ▸ h, fun h => h v rfl⟩

/-- Even where the variable decides, the section has to be read before it. -/
theorem result_of_text {l : Layers α} {t : String} (ht : l.text = some t) {a : α} :
    l.result = .ok a ↔ (∃ present, l.ofGiven = .ok present) ∧ l.readText t = .ok a := by
  have horText : l.orText = fun _ => l.readText t := by
    funext present
    unfold orText
    rw [ht]
  unfold result
  rw [horText]
  cases l.ofGiven with
  | error e => exact ⟨nofun, fun h => nomatch h.1⟩
  | ok present => exact ⟨fun h => ⟨⟨present, rfl⟩, h⟩, fun h => h.2⟩

theorem result_of_no_text {l : Layers α} (ht : l.text = none) : l.result = l.ofGiven := by
  have horText : l.orText = .ok := by
    funext present
    unfold orText
    rw [ht]
  unfold result
  rw [horText]
  cases l.ofGiven <;> rfl

/-- **A setting is read exactly if all layers that are present can be**, and then it is that of the
uppermost. -/
theorem result_eq_ok_iff {l : Layers α} {a : α} :
    l.result = .ok a ↔ l.Converts ∧ l.Resolves a := by
  constructor
  · intro h
    cases ht : l.text with
    | some t =>
      obtain ⟨hgiven, htext⟩ := (result_of_text ht).mp h
      refine ⟨⟨exists_ofGiven_iff.mp hgiven, fun t' ht' => ⟨a, ?_⟩⟩, .text ht htext⟩
      rwa [← Option.some.inj (ht.symm.trans ht')]
    | none =>
      rw [result_of_no_text ht] at h
      refine ⟨⟨exists_ofGiven_iff.mp ⟨a, h⟩, fun t' ht' => nomatch ht.symm.trans ht'⟩, ?_⟩
      unfold ofGiven at h
      cases hv : l.given with
      | some v =>
        rw [hv] at h
        exact .given ht hv h
      | none =>
        rw [hv] at h
        obtain rfl := Except.ok.inj h
        exact .fallback ht hv
  · rintro ⟨hconverts, hresolves⟩
    cases hresolves with
    | text ht htext =>
      exact (result_of_text ht).mpr ⟨exists_ofGiven_iff.mpr hconverts.given, htext⟩
    | given ht hv hgiven =>
      rw [result_of_no_text ht]
      unfold ofGiven
      rw [hv]
      exact hgiven
    | fallback ht hv =>
      rw [result_of_no_text ht]
      unfold ofGiven
      rw [hv]

/-- If the layers that are present can be read, then there is an uppermost value. -/
theorem Converts.exists_result {l : Layers α} (h : l.Converts) : ∃ a, l.result = .ok a := by
  cases ht : l.text with
  | some t =>
    obtain ⟨a, ha⟩ := h.text t ht
    exact ⟨a, result_eq_ok_iff.mpr ⟨h, .text ht ha⟩⟩
  | none =>
    cases hv : l.given with
    | some v =>
      obtain ⟨a, ha⟩ := h.given v hv
      exact ⟨a, result_eq_ok_iff.mpr ⟨h, .given ht hv ha⟩⟩
    | none => exact ⟨l.fallback, result_eq_ok_iff.mpr ⟨h, .fallback ht hv⟩⟩

end Layers

/-! ## The four settings -/

section

variable (environment : Table String String) (entries : List (Scalar × Value))

/-- A truth value: its variable is consulted when it is set. -/
def flagLayers (key name : String) (fallback : Bool) : Layers Bool where
  text := environment.get? name
  readText := fun t => readFlag name (.text t)
  given := Value.named? key entries
  readGiven := readFlag key
  fallback := fallback

/-- Whether to dump what is read. -/
def debugLayers : Layers Bool := flagLayers environment entries "debug" debugVariable false

/-- Whether calls are traced. -/
def traceLayers : Layers Bool := flagLayers environment entries "trace" traceVariable true

/-- The waiting time: its variable is consulted when it is not empty. -/
def timeoutLayers : Layers Binary64 where
  text := filled? environment timeoutVariable
  readText := readNumeral
  given := Value.named? "timeout" entries
  readGiven := readNumber
  fallback := CoreConfig.defaultTimeout

/-- The log level, in lower case: its variable is consulted when it is not empty, and a value of the
section that counts as false is none. -/
def levelLayers : Layers String where
  text := filled? environment logLevelVariable
  readText := fun t => .ok (Text.lower t)
  given := (Value.named? "log_level" entries).filter (·.truthy fun _ => 0)
  readGiven := fun v => (textOf v).map Text.lower
  fallback := "info"

/-- Settings with values of the right kinds. -/
def ofValues (debug : Bool) (timeout : Binary64) (level : String) (trace : Bool)
    (document : Value) : Settings where
  debug := .bool debug
  timeout := .float timeout
  logLevel := .text level
  trace := .bool trace
  document := document

/-! ### The section -/

/-- A flag of a section is read by the layers of its setting. -/
theorem readFlag_eq_ofGiven (key name : String) (fallback : Bool) :
    readFlag key ((Value.named? key entries).getD (.bool fallback))
      = (flagLayers environment entries key name fallback).ofGiven := by
  unfold Layers.ofGiven flagLayers
  cases Value.named? key entries with
  | none => rfl
  | some v => rw [Option.getD_some]

/-- The waiting time of a section is read by the layers of its setting. -/
theorem readNumber_eq_ofGiven :
    readNumber ((Value.named? "timeout" entries).getD (.float CoreConfig.defaultTimeout))
      = (timeoutLayers environment entries).ofGiven := by
  unfold Layers.ofGiven timeoutLayers
  -- The default is not to be computed.
  generalize CoreConfig.defaultTimeout = fallback
  cases Value.named? "timeout" entries with
  | none => rfl
  | some v => rw [Option.getD_some]

/-- The log level of a section is read by the layers of its setting, and is a text then. -/
theorem sectionLevel_eq_ofGiven :
    sectionLevel entries (.text "info")
      = (levelLayers environment entries).ofGiven.map .text := by
  unfold Layers.ofGiven levelLayers sectionLevel
  dsimp only
  cases (Value.named? "log_level" entries).filter (·.truthy fun _ => 0) with
  | none => rfl
  | some v =>
    show (textOf v).map _ = ((textOf v).map _).map _
    cases textOf v <;> rfl

/-- **Reading a section** reads the four settings one by one. -/
theorem ofSection_eq (document : Value) :
    ofSection entries document = do
      let debug ← (debugLayers environment entries).ofGiven
      let timeout ← (timeoutLayers environment entries).ofGiven
      let level ← (levelLayers environment entries).ofGiven
      let trace ← (traceLayers environment entries).ofGiven
      return ofValues debug timeout level trace document := by
  unfold ofSection
  dsimp only
  rw [readFlag_eq_ofGiven environment entries "debug" debugVariable,
    readNumber_eq_ofGiven environment, sectionLevel_eq_ofGiven environment,
    readFlag_eq_ofGiven environment entries "trace" traceVariable]
  cases (levelLayers environment entries).ofGiven <;> rfl

/-- An empty section leaves all settings at their defaults. -/
theorem ofSection_nil (document : Value) :
    ofSection [] document = .ok { document := document } := by
  unfold ofSection
  dsimp only
  generalize CoreConfig.defaultTimeout = fallback
  rfl

/-! ### The variables -/

/-- A flag is overridden by the upper layer of its setting. -/
theorem overrideFlag_eq_orText (key name : String) (fallback present : Bool) :
    overrideFlag environment name (.bool present)
      = ((flagLayers environment entries key name fallback).orText present).map .bool := by
  unfold overrideFlag Layers.orText flagLayers
  cases environment.get? name with
  | none => rfl
  | some text => dsimp only

/-- The waiting time is overridden by the upper layer of its setting. -/
theorem overrideTimeout_eq_orText (present : Binary64) :
    overrideTimeout environment (.float present)
      = ((timeoutLayers environment entries).orText present).map .float := by
  unfold overrideTimeout Layers.orText timeoutLayers
  cases filled? environment timeoutVariable <;> rfl

/-- The log level is overridden by the upper layer of its setting, and that cannot fail. -/
theorem overrideLevel_eq_orText (present : String) :
    (levelLayers environment entries).orText present
      = .ok (((filled? environment logLevelVariable).map Text.lower).getD present) ∧
    overrideLevel environment (.text present)
      = .text (((filled? environment logLevelVariable).map Text.lower).getD present) := by
  unfold overrideLevel Layers.orText levelLayers
  cases filled? environment logLevelVariable <;> exact ⟨rfl, rfl⟩

/-- The settings of a section once the variables were consulted and the waiting time that results
was checked. -/
def finish (debug : Bool) (timeout : Binary64) (level : String) (trace : Bool) (document : Value) :
    Except SettingsError Settings := do
  let debug ← (debugLayers environment entries).orText debug
  let level ← (levelLayers environment entries).orText level
  let timeout ← (timeoutLayers environment entries).orText timeout
  let trace ← (traceLayers environment entries).orText trace
  if timeout.isNonPositive then .error (.timeoutNotPositive (.float timeout))
  else .ok (ofValues debug timeout level trace document)

/-- **Consulting the variables** goes setting by setting. -/
theorem finish_eq_override (debug : Bool) (timeout : Binary64) (level : String) (trace : Bool)
    (document : Value) :
    finish environment entries debug timeout level trace document
      = match (ofValues debug timeout level trace document).override environment with
        | (_, some e) => .error e
        | (s, none) =>
          if isNonPositive s.timeout then .error (.timeoutNotPositive s.timeout) else .ok s := by
  obtain ⟨hlevel, hoverride⟩ := overrideLevel_eq_orText environment entries level
  unfold finish Settings.override ofValues
  dsimp only
  rw [overrideFlag_eq_orText environment entries "debug" debugVariable false, hlevel, hoverride,
    overrideTimeout_eq_orText environment entries,
    overrideFlag_eq_orText environment entries "trace" traceVariable true]
  unfold debugLayers traceLayers
  cases (flagLayers environment entries "debug" debugVariable false).orText debug with
  | error e => rfl
  | ok debug =>
    cases (timeoutLayers environment entries).orText timeout with
    | error e => rfl
    | ok timeout =>
      cases (flagLayers environment entries "trace" traceVariable true).orText trace <;> rfl

end

/-! ## Loading -/

/-- The settings of a section and an environment, setting by setting. -/
def ofLayers (environment : Table String String) (entries : List (Scalar × Value))
    (document : Value) : Except SettingsError Settings := do
  let debug ← (debugLayers environment entries).ofGiven
  let timeout ← (timeoutLayers environment entries).ofGiven
  let level ← (levelLayers environment entries).ofGiven
  let trace ← (traceLayers environment entries).ofGiven
  finish environment entries debug timeout level trace document

/-- **Settings are read exactly if each of the four is** and the waiting time is not ruled out. -/
theorem ofLayers_eq_ok_iff {environment : Table String String} {entries : List (Scalar × Value)}
    {document : Value} {s : Settings} :
    ofLayers environment entries document = .ok s ↔ ∃ debug timeout level trace,
      (debugLayers environment entries).result = .ok debug ∧
      (timeoutLayers environment entries).result = .ok timeout ∧
      (levelLayers environment entries).result = .ok level ∧
      (traceLayers environment entries).result = .ok trace ∧
      timeout.isNonPositive = false ∧ s = ofValues debug timeout level trace document := by
  constructor
  · intro h
    -- the document is read first, and the environment only if that succeeds
    obtain ⟨debug, hdebug, h⟩ := bind_eq_ok_iff.mp h
    obtain ⟨timeout, htimeout, h⟩ := bind_eq_ok_iff.mp h
    obtain ⟨level, hlevel, h⟩ := bind_eq_ok_iff.mp h
    obtain ⟨trace, htrace, h⟩ := bind_eq_ok_iff.mp h
    obtain ⟨debug', hdebug', h⟩ := bind_eq_ok_iff.mp h
    obtain ⟨level', hlevel', h⟩ := bind_eq_ok_iff.mp h
    obtain ⟨timeout', htimeout', h⟩ := bind_eq_ok_iff.mp h
    obtain ⟨trace', htrace', h⟩ := bind_eq_ok_iff.mp h
    unfold Layers.result
    rw [hdebug, htimeout, hlevel, htrace]
    split at h
    · cases h
    · exact ⟨debug', timeout', level', trace', hdebug', htimeout', hlevel', htrace',
        eq_false_of_ne_true ‹_›, (Except.ok.inj h).symm⟩
  · rintro ⟨debug', timeout', level', trace', hdebug, htimeout, hlevel, htrace, hpositive, rfl⟩
    obtain ⟨debug, hdebug, hdebug'⟩ := bind_eq_ok_iff.mp hdebug
    obtain ⟨timeout, htimeout, htimeout'⟩ := bind_eq_ok_iff.mp htimeout
    obtain ⟨level, hlevel, hlevel'⟩ := bind_eq_ok_iff.mp hlevel
    obtain ⟨trace, htrace, htrace'⟩ := bind_eq_ok_iff.mp htrace
    unfold ofLayers
    rw [hdebug, htimeout, hlevel, htrace]
    show finish environment entries debug timeout level trace document = _
    unfold finish
    rw [hdebug', hlevel', htimeout', htrace']
    exact if_neg (ne_true_of_eq_false hpositive)

/-- **The section of a document** that is a table, or of none: empty if it is missing or counts as
false, and else a table. -/
inductive IsSection : Option (List (Scalar × Value)) → List (Scalar × Value) → Prop
  | unsaid : IsSection none []
  | missing {document : List (Scalar × Value)} :
      Value.named? sectionName document = none → IsSection (some document) []
  | falsy {document : List (Scalar × Value)} {v : Value} :
      Value.named? sectionName document = some v → v.truthy (fun _ => 0) = false →
        IsSection (some document) []
  | table {document entries : List (Scalar × Value)} :
      Value.named? sectionName document = some (.dict entries) → IsSection (some document) entries

/-- A document has a section exactly if that is a table or counts as false. -/
theorem sectionOf_eq_ok_iff {document entries : List (Scalar × Value)} :
    sectionOf (.dict document) = .ok entries ↔ IsSection (some document) entries := by
  unfold sectionOf
  dsimp only
  constructor
  · intro h
    split at h
    · obtain rfl := Except.ok.inj h
      exact .table ‹_›
    · split at h
      · cases h
      · obtain rfl := Except.ok.inj h
        exact .falsy ‹_› (eq_false_of_ne_true ‹_›)
    · obtain rfl := Except.ok.inj h
      exact .missing ‹_›
  · intro h
    cases h with
    | missing hnamed => rw [hnamed]
    | table hnamed => rw [hnamed]
    | @falsy _ v hnamed hfalse =>
      rw [hnamed]
      cases v with
      | dict inner =>
        obtain rfl : inner = [] := List.isEmpty_iff.mp (by simpa [Value.truthy] using hfalse)
        rfl
      | _ => exact if_neg (ne_true_of_eq_false hfalse)

end Settings

/-- **What a workspace holds** under the path that settings are read from: a document that is a
table, or no document at all. -/
def Workspace.Holds (w : Workspace) (explicit : Option Path) :
    Option (List (Scalar × Value)) → Prop
  | some document => ∃ path, w.locate explicit = some path ∧
      w.readDocument path = .ok (.dict document)
  | none => w.locate explicit = none

namespace Settings

section

variable {w : Workspace} {explicit : Option Path} {document : Option (List (Scalar × Value))}
  {entries : List (Scalar × Value)} {environment : Table String String}

/-- **Of a file only the section matters**, and the document as such. -/
theorem ofFile_eq_ofSection (hholds : w.Holds explicit document)
    (hsection : IsSection document entries) :
    ofFile w (w.locate explicit) = ofSection entries (.dict (document.getD [])) := by
  cases document with
  | none =>
    cases hsection
    rw [show w.locate explicit = none from hholds]
    exact (ofSection_nil (.dict [])).symm
  | some document =>
    obtain ⟨path, hlocate, hread⟩ := hholds
    rw [hlocate]
    show (w.readDocument path).bind ofDocument = _
    rw [hread]
    show sectionOf (.dict document) >>= (ofSection · (.dict document)) = _
    rw [sectionOf_eq_ok_iff.mpr hsection]
    rfl

/-- **Loading** resolves the layers of the section and the environment. -/
theorem load_eq_ofLayers (hholds : w.Holds explicit document)
    (hsection : IsSection document entries) :
    load w explicit environment = ofLayers environment entries (.dict (document.getD [])) := by
  unfold load ofLayers
  rw [ofFile_eq_ofSection hholds hsection, ofSection_eq environment]
  cases (debugLayers environment entries).ofGiven with
  | error e => rfl
  | ok debug =>
    cases (timeoutLayers environment entries).ofGiven with
    | error e => rfl
    | ok timeout =>
      cases (levelLayers environment entries).ofGiven with
      | error e => rfl
      | ok level =>
        cases (traceLayers environment entries).ofGiven with
        | error e => rfl
        | ok trace => exact (finish_eq_override environment entries ..).symm

/-- A document with no section that can be read is not loaded. -/
theorem exists_isSection_of_load {s : Settings} (hholds : w.Holds explicit document)
    (h : load w explicit environment = .ok s) : ∃ entries, IsSection document entries := by
  cases document with
  | none => exact ⟨[], .unsaid⟩
  | some document =>
    obtain ⟨path, hlocate, hread⟩ := hholds
    unfold load at h
    rw [hlocate] at h
    have hfile : ofFile w (some path) = ofDocument (.dict document) := by
      show (w.readDocument path).bind ofDocument = _
      rw [hread]
      rfl
    rw [hfile] at h
    cases hsection : sectionOf (.dict document) with
    | error e =>
      unfold ofDocument at h
      rw [hsection] at h
      cases h
    | ok entries => exact ⟨entries, sectionOf_eq_ok_iff.mp hsection⟩

end

/-- **Everything that is present for a setting can be read.** -/
structure Readable (environment : Table String String) (entries : List (Scalar × Value)) :
    Prop where
  debug : (debugLayers environment entries).Converts
  timeout : (timeoutLayers environment entries).Converts
  level : (levelLayers environment entries).Converts
  trace : (traceLayers environment entries).Converts

/-- **Every setting is that of its uppermost layer.** -/
structure Resolved (environment : Table String String) (entries : List (Scalar × Value))
    (s : Settings) : Prop where
  debug : ∃ b, s.debug = .bool b ∧ (debugLayers environment entries).Resolves b
  timeout : ∃ x, s.timeout = .float x ∧ (timeoutLayers environment entries).Resolves x
  level : ∃ t, s.logLevel = .text t ∧ (levelLayers environment entries).Resolves t
  trace : ∃ b, s.trace = .bool b ∧ (traceLayers environment entries).Resolves b

/-- Two sections and environments that agree on one key and one variable. -/
structure SameSources (key name : String) (environment environment' : Table String String)
    (entries entries' : List (Scalar × Value)) : Prop where
  given : Value.named? key entries = Value.named? key entries'
  text : environment.get? name = environment'.get? name

/-- **Two settings agree wherever their own sources do.** -/
structure AgreeBySource (environment environment' : Table String String)
    (entries entries' : List (Scalar × Value)) (s s' : Settings) : Prop where
  debug : SameSources "debug" debugVariable environment environment' entries entries' →
    s.debug = s'.debug
  timeout : SameSources "timeout" timeoutVariable environment environment' entries entries' →
    s.timeout = s'.timeout
  level : SameSources "log_level" logLevelVariable environment environment' entries entries' →
    s.logLevel = s'.logLevel
  trace : SameSources "trace" traceVariable environment environment' entries entries' →
    s.trace = s'.trace

section

variable {environment environment' : Table String String}
  {entries entries' : List (Scalar × Value)} {document document' : Value} {s s' : Settings}

/-- Settings that are read are resolved, each by its own layers. -/
theorem resolved_of_ofLayers (h : ofLayers environment entries document = .ok s) :
    Resolved environment entries s := by
  obtain ⟨debug, timeout, level, trace, hdebug, htimeout, hlevel, htrace, -, rfl⟩ :=
    ofLayers_eq_ok_iff.mp h
  exact ⟨⟨debug, rfl, (Layers.result_eq_ok_iff.mp hdebug).2⟩,
    ⟨timeout, rfl, (Layers.result_eq_ok_iff.mp htimeout).2⟩,
    ⟨level, rfl, (Layers.result_eq_ok_iff.mp hlevel).2⟩,
    ⟨trace, rfl, (Layers.result_eq_ok_iff.mp htrace).2⟩⟩

/-- **When the layers give settings**: all of them can be read, and the waiting time that results is
not zero or less. -/
theorem exists_ofLayers_iff :
    (∃ s, ofLayers environment entries document = .ok s) ↔ Readable environment entries ∧
      ∃ timeout, (timeoutLayers environment entries).Resolves timeout ∧
        timeout.isNonPositive = false := by
  constructor
  · rintro ⟨s, h⟩
    obtain ⟨debug, timeout, level, trace, hdebug, htimeout, hlevel, htrace, hpositive, -⟩ :=
      ofLayers_eq_ok_iff.mp h
    exact ⟨⟨(Layers.result_eq_ok_iff.mp hdebug).1, (Layers.result_eq_ok_iff.mp htimeout).1,
      (Layers.result_eq_ok_iff.mp hlevel).1, (Layers.result_eq_ok_iff.mp htrace).1⟩,
      timeout, (Layers.result_eq_ok_iff.mp htimeout).2, hpositive⟩
  · rintro ⟨hreadable, timeout, htimeout, hpositive⟩
    obtain ⟨debug, hdebug⟩ := hreadable.debug.exists_result
    obtain ⟨level, hlevel⟩ := hreadable.level.exists_result
    obtain ⟨trace, htrace⟩ := hreadable.trace.exists_result
    exact ⟨_, ofLayers_eq_ok_iff.mpr ⟨debug, timeout, level, trace, hdebug,
      Layers.result_eq_ok_iff.mpr ⟨hreadable.timeout, htimeout⟩, hlevel, htrace, hpositive, rfl⟩⟩

/-- The layers of a setting are those of its own key and its own variable, so equal sources come to
equal settings. -/
theorem agreeBySource_of_ofLayers (h : ofLayers environment entries document = .ok s)
    (h' : ofLayers environment' entries' document' = .ok s') :
    AgreeBySource environment environment' entries entries' s s' := by
  obtain ⟨debug, timeout, level, trace, hdebug, htimeout, hlevel, htrace, -, rfl⟩ :=
    ofLayers_eq_ok_iff.mp h
  obtain ⟨debug', timeout', level', trace', hdebug', htimeout', hlevel', htrace', -, rfl⟩ :=
    ofLayers_eq_ok_iff.mp h'
  refine ⟨fun hsame => ?_, fun hsame => ?_, fun hsame => ?_, fun hsame => ?_⟩
  · unfold debugLayers flagLayers at hdebug hdebug'
    rw [hsame.given, hsame.text] at hdebug
    exact congrArg Value.bool (Except.ok.inj (hdebug.symm.trans hdebug'))
  · unfold timeoutLayers filled? at htimeout htimeout'
    rw [hsame.given, hsame.text] at htimeout
    exact congrArg Value.float (Except.ok.inj (htimeout.symm.trans htimeout'))
  · unfold levelLayers filled? at hlevel hlevel'
    rw [hsame.given, hsame.text] at hlevel
    exact congrArg Value.text (Except.ok.inj (hlevel.symm.trans hlevel'))
  · unfold traceLayers flagLayers at htrace htrace'
    rw [hsame.given, hsame.text] at htrace
    exact congrArg Value.bool (Except.ok.inj (htrace.symm.trans htrace'))

end

end Settings

/-! ## Integers as log levels -/

/-- A path that leads to a text in TOML holds what the text says. -/
theorem Workspace.holds_of_resolve {w : Workspace} {explicit : Option Path} {path : Path}
    {text : String} {document : List (Scalar × Value)} (hlocate : w.locate explicit = some path)
    (hresolve : w.resolve? path = some (.file text.toUTF8)) (htoml : isToml path = true)
    (hread : Toml.read text = .ok (.dict document)) : w.Holds explicit (some document) := by
  refine ⟨path, hlocate, ?_⟩
  unfold readDocument
  rw [hresolve]
  dsimp only
  rw [show String.fromUTF8? text.toUTF8 = some text from dif_pos text.isValidUTF8]
  dsimp only
  unfold readText
  rw [htoml, if_pos rfl, hread]

namespace Toml

theorem unifyLineEnds_eq_self {cs : List Char} (h : '\r' ∉ cs) : unifyLineEnds cs = cs := by
  fun_induction unifyLineEnds cs with
  | case1 => rfl
  | case2 cs _ => exact absurd List.mem_cons_self h
  | case3 c cs _ ih => rw [ih fun hmem => h (List.mem_cons_of_mem c hmem)]

theorem takeDigits_replicate (zeros : Nat) :
    takeDigits (isDigitOf 16) (List.replicate zeros '0') = (List.replicate zeros '0', []) := by
  induction zeros with
  | zero => rfl
  | succ zeros ih =>
    rw [List.replicate_succ]
    show ('0' :: (takeDigits (isDigitOf 16) (List.replicate zeros '0')).1,
      (takeDigits (isDigitOf 16) (List.replicate zeros '0')).2) = _
    rw [ih]

theorem foldl_replicate (zeros n : Nat) :
    (List.replicate zeros '0').foldl (fun n c => 16 * n + (Json.hexDigit? c).getD 0) n
      = n * 16 ^ zeros := by
  induction zeros generalizing n with
  | zero => exact (Nat.mul_one n).symm
  | succ zeros ih =>
    rw [List.replicate_succ, List.foldl_cons, ih]
    show (16 * n + 0) * 16 ^ zeros = n * 16 ^ (zeros + 1)
    ring

/-- One followed by zeros, in base sixteen. -/
def hexPower (zeros : Nat) : List Char := '0' :: 'x' :: '1' :: List.replicate zeros '0'

/-- A power of sixteen is read in its hexadecimal form. -/
theorem number_hexPower (zeros : Nat) :
    number (hexPower zeros) = .ok (.int (Nat.pow 16 zeros : Nat), []) := by
  have hrun : takeRun (isDigitOf 16) ('1' :: List.replicate zeros '0')
      = ('1' :: List.replicate zeros '0', []) := by
    show ('1' :: (takeDigits (isDigitOf 16) (List.replicate zeros '0')).1,
      (takeDigits (isDigitOf 16) (List.replicate zeros '0')).2) = _
    rw [takeDigits_replicate]
  have hbased : basedInteger? ('x' :: '1' :: List.replicate zeros '0')
      = some (.int (Nat.pow 16 zeros : Nat), []) := by
    unfold basedInteger?
    dsimp only
    rw [show base? 'x' = some 16 from rfl, Option.bind_some, hrun]
    show some (Scalar.int ((List.replicate zeros '0').foldl _ 1 : Nat), []) = _
    rw [foldl_replicate, Nat.one_mul]
    rfl
  simp only [number, hexPower, hbased]

/-- A power of sixteen is no moment: the base is marked where a day or a time has a digit. -/
theorem moment?_hexPower (zeros : Nat) : moment? (hexPower zeros) = none := by
  have hyear : ((hexPower zeros).take 4).all Binary64.isBasicDigit = false := rfl
  have hday : dayParts? (hexPower zeros) = none := by
    unfold dayParts?
    simp only [hyear, Bool.and_false]
    rfl
  unfold moment?
  rw [hday]
  rfl

/-- The same as a value, for it is neither a text nor a flag nor a moment. -/
theorem leaf_hexPower (zeros : Nat) :
    leaf (hexPower zeros) = .ok (.int (Nat.pow 16 zeros : Nat), []) := by
  unfold leaf
  rw [moment?_hexPower]
  show (number (hexPower zeros)).into Value.scalar = _
  rw [number_hexPower]
  rfl

/-- The line of a log level. -/
def levelLine (body : List Char) : List Char := "runtime.log_level=".toList ++ body

/-- What is neither a list nor a table is read at once. -/
theorem value_eq_leaf {c : Char} {cs : List Char} (hlist : c ≠ '[') (htable : c ≠ '\x7b')
    (count : Nat) : value (count + 1) (c :: cs) = leaf (c :: cs) := by
  rw [value]
  · exact fun _ h => hlist (List.cons.inj h).1
  · exact fun _ h => htable (List.cons.inj h).1

/-- A line that gives the log level is read as an entry for it. -/
theorem statement_levelLine {c : Char} {cs : List Char} {v : Value} (hblank : isBlank c = false)
    (hlist : c ≠ '[') (htable : c ≠ '\x7b') (h : leaf (c :: cs) = .ok (v, [])) :
    statement (levelLine (c :: cs)) = .ok (.entry ["runtime", "log_level"] v, []) := by
  have hskip : (c :: cs).dropWhile isBlank = c :: cs :=
    List.dropWhile_cons_of_neg (ne_true_of_eq_false hblank)
  show (value (2 * ((c :: cs).dropWhile isBlank).length + 2) ((c :: cs).dropWhile isBlank)).into
    (Statement.entry ["runtime", "log_level"]) = _
  rw [hskip, value_eq_leaf hlist htable, h]
  rfl

/-- A text that is one statement. -/
theorem statements_of_statement {c : Char} {cs : List Char} {line : Statement} (count : Nat)
    (hblank : isBlank c = false) (hend : c ≠ '\n') (hcomment : c ≠ '#')
    (h : statement (c :: cs) = .ok (line, [])) :
    statements (count + 2) (c :: cs) = ([line], none) := by
  have hskip : (c :: cs).dropWhile isBlank = c :: cs :=
    List.dropWhile_cons_of_neg (ne_true_of_eq_false hblank)
  rw [statements, hskip]
  split
  · cases ‹c :: cs = []›
  · exact absurd (List.cons.inj ‹_›).1 hend
  · exact absurd (List.cons.inj ‹_›).1 hcomment
  · rw [h]
    rfl

/-- A document that is the line of a log level. -/
theorem read_levelLine {c : Char} {cs : List Char} {v : Value} (hends : '\r' ∉ c :: cs)
    (hblank : isBlank c = false) (hlist : c ≠ '[') (htable : c ≠ '\x7b')
    (h : leaf (c :: cs) = .ok (v, [])) :
    read (String.ofList (levelLine (c :: cs)))
      = .ok (.dict [(.text "runtime", .dict [(.text "log_level", v)])]) := by
  have hunified : unifyLineEnds (levelLine (c :: cs)) = levelLine (c :: cs) := by
    refine unifyLineEnds_eq_self fun hmem => ?_
    obtain hmem | hmem := List.mem_append.mp hmem
    · exact absurd hmem (by decide)
    · exact hends hmem
  have hlength : (levelLine (c :: cs)).length + 1 = (cs.length + 18) + 2 := by
    unfold levelLine
    rw [List.length_append, show "runtime.log_level=".toList.length = 18 from rfl, List.length_cons]
    omega
  have hstatements : statements ((cs.length + 18) + 2) (levelLine (c :: cs))
      = ([.entry ["runtime", "log_level"] v], none) :=
    statements_of_statement _ rfl (by decide) (by decide)
      (statement_levelLine hblank hlist htable h)
  unfold read
  rw [String.toList_ofList, hunified]
  dsimp only
  rw [hlength, hstatements]
  rfl

/-- **An integer in base sixteen is read at any length.** -/
theorem read_hexLevel (zeros : Nat) :
    read (String.ofList (levelLine (hexPower zeros))) = .ok (.dict
      [(.text "runtime", .dict [(.text "log_level", .int (Nat.pow 16 zeros : Nat))])]) := by
  refine read_levelLine (fun hmem => ?_) rfl (by decide) (by decide) (leaf_hexPower zeros)
  simp [List.mem_replicate] at hmem

end Toml

/-- A section that says nothing but the log level. -/
def levelSection (level : Value) : List (Scalar × Value) := [(.text "log_level", level)]

/-- The document of such a section. -/
def levelDocument (level : Value) : Option (List (Scalar × Value)) :=
  some [(.text "runtime", .dict (levelSection level))]

theorem isSection_levelSection (level : Value) :
    Settings.IsSection (levelDocument level) (levelSection level) := .table rfl

/-- A level that counts as true is read by its text. -/
theorem ofGiven_levelSection (environment : Table String String) {level : Value}
    (htruthy : level.truthy (fun _ => 0) = true) :
    (Settings.levelLayers environment (levelSection level)).ofGiven
      = (Settings.textOf level).map Text.lower := by
  show (match (some level).filter (·.truthy fun _ => 0) with
    | some v => (Settings.textOf v).map Text.lower
    | none => .ok "info") = _
  rw [Option.filter_some, if_pos htruthy]

/-- A number is too long from a power of ten on. -/
theorem isLong_int_iff (n : Nat) :
    Value.isLong (.int n) = true ↔ Nat.pow 10 Value.digitLimit ≤ n := by
  unfold Value.isLong
  generalize Nat.pow 10 Value.digitLimit = bound
  exact decide_eq_true_iff

/-! ## Precedence -/

/-- **Settings are resolved one by one.** Let a workspace hold a document that is a table, or none.
Loading succeeds exactly if the section of the document is a table or counts as false, everything
that is present for a setting can be read, in the section as in the environment, and the waiting
time that results is not zero or less. Then every setting is that of its own uppermost layer, and it
is the same in any other loading in which its own key and its own variable are the same. -/
theorem settings_come_from_own_layers (w : Workspace) (explicit : Option Path)
    (document : Option (List (Scalar × Value))) (environment : Table String String)
    (hholds : w.Holds explicit document) :
    ((∃ s, Settings.load w explicit environment = .ok s) ↔
      ∃ entries, Settings.IsSection document entries ∧ Settings.Readable environment entries ∧
        ∃ timeout, (Settings.timeoutLayers environment entries).Resolves timeout ∧
          timeout.isNonPositive = false) ∧
    ∀ s entries, Settings.load w explicit environment = .ok s →
      Settings.IsSection document entries →
      Settings.Resolved environment entries s ∧
      ∀ w' explicit' document' environment' s' entries', w'.Holds explicit' document' →
        Settings.load w' explicit' environment' = .ok s' → Settings.IsSection document' entries' →
        Settings.AgreeBySource environment environment' entries entries' s s' := by
  refine ⟨⟨?_, ?_⟩, ?_⟩
  · rintro ⟨s, h⟩
    obtain ⟨entries, hsection⟩ := Settings.exists_isSection_of_load hholds h
    rw [Settings.load_eq_ofLayers hholds hsection] at h
    exact ⟨entries, hsection, Settings.exists_ofLayers_iff.mp ⟨s, h⟩⟩
  · rintro ⟨entries, hsection, hlayers⟩
    rw [Settings.load_eq_ofLayers hholds hsection]
    exact Settings.exists_ofLayers_iff.mpr hlayers
  · intro s entries h hsection
    rw [Settings.load_eq_ofLayers hholds hsection] at h
    refine ⟨Settings.resolved_of_ofLayers h, ?_⟩
    intro w' explicit' document' environment' s' entries' hholds' h' hsection'
    rw [Settings.load_eq_ofLayers hholds' hsection'] at h'
    exact Settings.agreeBySource_of_ofLayers h h'

/-- The first of May. -/
def firstOfMay : Day := ⟨2024, 5, 1, by decide, by decide, by decide⟩

/-- A file outside the root of a workspace. -/
def distantPath : Path := ⟨true, ["etc", "zcw.toml"]⟩

/-- A workspace with settings outside its root, where the log level is a day. -/
def dayLevelWorkspace : Workspace where
  files := [(["etc", "zcw.toml"], (String.ofList (Toml.levelLine "2024-05-01".toList)).toUTF8)]
  root := ["work"]
  current := ["work"]

/-- The document at an absolute path is found wherever the root is. -/
theorem holds_dayLevelWorkspace :
    dayLevelWorkspace.Holds (some distantPath)
      (levelDocument (.handle (.moment (.day firstOfMay)))) := by
  have hlocate : dayLevelWorkspace.locate (some distantPath) = some distantPath := rfl
  exact Workspace.holds_of_resolve hlocate rfl (by decide)
    (Toml.read_levelLine (by decide) rfl (by decide) (by decide) rfl)

/-- The settings that an environment makes of it. -/
def layeredSettings : Settings :=
  Settings.ofValues true (.infinite false) "2024-05-01" true
    (.dict [(.text "runtime", .dict (levelSection (.handle (.moment (.day firstOfMay)))))])

/-- Two settings come from the environment, one from a section far from the workspace, and one is at
its default. -/
theorem layeredSettings_come_from_own_layers :
    dayLevelWorkspace.Holds (some distantPath)
      (levelDocument (.handle (.moment (.day firstOfMay)))) ∧
    Settings.load dayLevelWorkspace (some distantPath) patientEnvironment = .ok layeredSettings ∧
    Settings.Resolved patientEnvironment (levelSection (.handle (.moment (.day firstOfMay))))
      layeredSettings := by
  have hholds := holds_dayLevelWorkspace
  have hsection := isSection_levelSection (.handle (.moment (.day firstOfMay)))
  have hlevel : (Settings.levelLayers patientEnvironment
      (levelSection (.handle (.moment (.day firstOfMay))))).result = .ok "2024-05-01" := by
    unfold Settings.Layers.result
    rw [ofGiven_levelSection patientEnvironment rfl]
    rfl
  have hload : Settings.load dayLevelWorkspace (some distantPath) patientEnvironment
      = .ok layeredSettings := by
    rw [Settings.load_eq_ofLayers hholds hsection]
    exact Settings.ofLayers_eq_ok_iff.mpr ⟨true, .infinite false, "2024-05-01", true, rfl, rfl,
      hlevel, rfl, rfl, rfl⟩
  exact ⟨hholds, hload, ((settings_come_from_own_layers _ _ _ patientEnvironment hholds).2
    layeredSettings _ hload hsection).1⟩

/-- The default waiting time is not ruled out. -/
theorem isNonPositive_fallback (environment : Table String String)
    (entries : List (Scalar × Value)) :
    (Settings.timeoutLayers environment entries).fallback.isNonPositive = false := by
  unfold Settings.timeoutLayers
  dsimp only
  decide +kernel

/-- A workspace with a power of sixteen as the log level. -/
def hexLevelWorkspace (zeros : Nat) : Workspace where
  files := [(["zcw.toml"], (String.ofList (Toml.levelLine (Toml.hexPower zeros))).toUTF8)]

theorem holds_hexLevelWorkspace (zeros : Nat) :
    (hexLevelWorkspace zeros).Holds none (levelDocument (.int (Nat.pow 16 zeros : Nat))) := by
  have hlocate : (hexLevelWorkspace zeros).locate none = some ⟨true, ["zcw.toml"]⟩ := rfl
  exact Workspace.holds_of_resolve hlocate rfl (by decide) (Toml.read_hexLevel zeros)

/-- A document that says nothing but the log level need not load, even with no variable set: an
integer that is too long can be read but not written. -/
theorem longLevel_not_loaded :
    (hexLevelWorkspace Value.digitLimit).Holds none
      (levelDocument (.int (Nat.pow 16 Value.digitLimit : Nat))) ∧
    Settings.IsSection (levelDocument (.int (Nat.pow 16 Value.digitLimit : Nat)))
      (levelSection (.int (Nat.pow 16 Value.digitLimit : Nat))) ∧
    (Settings.debugLayers {} (levelSection (.int (Nat.pow 16 Value.digitLimit : Nat)))).Converts ∧
    (Settings.timeoutLayers {} (levelSection (.int (Nat.pow 16 Value.digitLimit : Nat)))).Converts ∧
    (Settings.traceLayers {} (levelSection (.int (Nat.pow 16 Value.digitLimit : Nat)))).Converts ∧
    (∃ timeout, (Settings.timeoutLayers {}
      (levelSection (.int (Nat.pow 16 Value.digitLimit : Nat)))).Resolves timeout ∧
      timeout.isNonPositive = false) ∧
    Settings.load (hexLevelWorkspace Value.digitLimit) none {}
      = .error (.unwritable Value.tooLong) := by
  have hholds := holds_hexLevelWorkspace Value.digitLimit
  have hbound : ∀ count, Nat.pow 10 count ≤ Nat.pow 16 count :=
    fun count => Nat.pow_le_pow_left (by decide) count
  have hlong := (isLong_int_iff _).mpr (hbound Value.digitLimit)
  have hpower : ∀ count, 0 < Nat.pow 16 count := fun _ => Nat.pow_pos (by decide)
  have hpositive := hpower Value.digitLimit
  generalize Nat.pow 16 Value.digitLimit = n at *
  have htruthy : (Value.int n).truthy (fun _ => 0) = true :=
    bne_iff_ne.mpr (Int.natCast_ne_zero.mpr (Nat.ne_of_gt hpositive))
  have htext : Settings.textOf (.int n) = .error (.unwritable Value.tooLong) := by
    show (Value.written _ _).mapError _ = _
    unfold Value.written
    rw [hlong]
    rfl
  refine ⟨hholds, isSection_levelSection _, ⟨nofun, nofun⟩, ⟨nofun, nofun⟩, ⟨nofun, nofun⟩,
    ⟨_, .fallback rfl rfl, isNonPositive_fallback ..⟩, ?_⟩
  rw [Settings.load_eq_ofLayers hholds (isSection_levelSection _)]
  unfold Settings.ofLayers
  rw [ofGiven_levelSection {} htruthy, htext]
  rfl

end CallScript
