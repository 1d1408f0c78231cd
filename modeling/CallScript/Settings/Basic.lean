import CallScript.Core.Config
import CallScript.ForeignError.Text
import CallScript.Text.Lowercase

/-!
# Settings of a runner

A runner has four settings: whether to dump what it reads, how long core methods may wait, the log
level and whether calls are traced. The embedding program sets them to any values; they are checked
only when a core is configured from them. Environment variables override them one by one.
-/

namespace CallScript

/-- Settings as they were given, and the document they came from. -/
structure Settings where
  debug : Value := .bool false
  timeout : Value := .float CoreConfig.defaultTimeout
  logLevel : Value := .text "info"
  trace : Value := .bool true
  document : Value := .dict []

/-- Why settings could not be loaded. -/
inductive SettingsError where
  /-- A value, by its display form, that stands for no truth value. -/
  | invalidFlag (setting shown : String)
  /-- The section of the settings is not a table. -/
  | sectionNotTable
  /-- A text that is no numeral. -/
  | notNumeral (text : String)
  /-- A value that could not stand for a number. -/
  | notNumber (value : Value)
  /-- An integer beyond all finite numbers. -/
  | tooLarge
  /-- A waiting time that is not positive. -/
  | timeoutNotPositive (timeout : Value)
  /-- A document that is not a table. -/
  | notDocument (value : Value)
  /-- A file that is not text. -/
  | notText
  | malformedJson
  | malformedToml
  /-- An integer of too many digits to read. -/
  | tooManyDigits (count : Nat)
  /-- A value that cannot be written. -/
  | unwritable (e : ForeignError)
  /-- A directory in the place of a file. -/
  | isDirectory

namespace SettingsError

/-- The kind of a value as the reader of numbers names it. -/
def numberKind : Value → String
  | .handle (.moment m) => "datetime." ++ m.kindName
  | value => value.kindName

/-- The message of an error; the errors of documents and files have none of their own. -/
def message : SettingsError → Except ForeignError String
  | invalidFlag setting shown => .ok ("Invalid boolean for '" ++ setting ++ "': " ++ shown)
  | sectionNotTable => .ok "The 'runtime' configuration section must be a table"
  | notNumeral text => .ok ("could not convert string to float: " ++ Text.display text)
  | notNumber value =>
    .ok ("float() argument must be a string or a real number, not '" ++ numberKind value ++ "'")
  | tooLarge => .ok "int too large to convert to float"
  | timeoutNotPositive timeout =>
    (timeout.plain Value.noRegistries).map ("timeout must be positive, got " ++ ·)
  | notDocument value => .ok ("'" ++ value.kindName ++ "' object has no attribute 'get'")
  | tooManyDigits count => .ok (Value.digitLimitMessage (some count))
  | unwritable e => e.text Value.noRegistries
  | _ => .ok ""

end SettingsError

namespace Settings

/-- A truth value by its word, in any case of letters and with blanks around it. -/
def flagOfWord? (s : String) : Option Bool :=
  let word := Text.lower (String.ofList (Text.trimBy Text.isBlank s.toList))
  if ["1", "true", "yes", "on"].contains word then some true
  else if ["0", "false", "no", "off", ""].contains word then some false
  else none

/-- The text of a value that came from a document. -/
def textOf (v : Value) : Except SettingsError String :=
  (v.plain Value.noRegistries).mapError .unwritable

/-- The error of a value that stands for no truth value. -/
def refuseFlag (setting : String) (v : Value) : SettingsError :=
  match v.display Value.noRegistries with
  | .ok shown => .invalidFlag setting shown
  | .error e => .unwritable e

/-- Reads a truth value from any value, by its text. -/
def readFlag (setting : String) (v : Value) : Except SettingsError Bool :=
  match v with
  | .bool b => .ok b
  | _ =>
    match textOf v with
    | .error e => .error e
    | .ok word =>
      match flagOfWord? word with
      | some b => .ok b
      | none => .error (refuseFlag setting v)

/-- Reads a number from a text. -/
def readNumeral (s : String) : Except SettingsError Binary64 :=
  match Binary64.lenient? s with
  | some x => .ok x
  | none => .error (.notNumeral s)

/-- Reads a number from a value. -/
def readNumber (v : Value) : Except SettingsError Binary64 :=
  match v with
  | .bool b => .ok (Binary64.ofBool b)
  | .int n =>
    match Binary64.ofInt? n with
    | some x => .ok x
    | none => .error .tooLarge
  | .float x => .ok x
  | _ =>
    match v.text? with
    | some s => readNumeral s
    | none => .error (.notNumber v)

/-- The names under which settings are given. -/
def fieldNames : List String := ["debug", "timeout", "log_level", "trace", "raw"]

/-- Settings given by name, the others at their defaults. -/
def ofFields (fields : Table String Value) : Except ForeignError Settings :=
  match fields.names.find? fun name => !fieldNames.contains name with
  | some name => .error (.surplusArgument "RuntimeConfig.__init__" name)
  | none =>
    let defaults : Settings := {}
    let given := fun name missing => (fields.get? name).getD missing
    .ok {
      debug := given "debug" defaults.debug
      timeout := given "timeout" defaults.timeout
      logLevel := given "log_level" defaults.logLevel
      trace := given "trace" defaults.trace
      document := given "raw" defaults.document }

/-- The configuration of a core that settings ask for. -/
def coreConfig (s : Settings) : Except (List FieldIssue) CoreConfig :=
  CoreConfig.ofFields
    (.ofList [(CoreConfig.debugField, s.debug), (CoreConfig.timeoutField, s.timeout)])

/-! ## Environment variables -/

/-- The environment variable that makes a runner dump what it reads. -/
def debugVariable : String := "ZCW_DEBUG"

/-- The environment variable of the log level. -/
def logLevelVariable : String := "ZCW_LOG_LEVEL"

/-- The environment variable of the waiting time. -/
def timeoutVariable : String := "ZCW_TIMEOUT"

/-- The environment variable that turns traces on or off. -/
def traceVariable : String := "ZCW_TRACE"

/-- The value of a variable that is set and not empty. -/
def filled? (environment : Table String String) (name : String) : Option String :=
  (environment.get? name).filter (· ≠ "")

/-- The override of a truth value. -/
def overrideFlag (environment : Table String String) (name : String) (present : Value) :
    Except SettingsError Value :=
  match environment.get? name with
  | some text => (readFlag name (.text text)).map .bool
  | none => .ok present

/-- The override of the log level, which any text that is not empty is. -/
def overrideLevel (environment : Table String String) (present : Value) : Value :=
  match filled? environment logLevelVariable with
  | some text => .text (Text.lower text)
  | none => present

/-- The override of the waiting time; an empty variable is none. -/
def overrideTimeout (environment : Table String String) (present : Value) :
    Except SettingsError Value :=
  match filled? environment timeoutVariable with
  | some text => (readNumeral text).map .float
  | none => .ok present

/-- **Overriding settings by environment variables**, one after the other. An override that cannot
be read stops the work; those before it stay in force. -/
def override (environment : Table String String) (s : Settings) : Settings × Option SettingsError :=
  match overrideFlag environment debugVariable s.debug with
  | .error e => (s, some e)
  | .ok debug =>
    let s := { s with debug := debug, logLevel := overrideLevel environment s.logLevel }
    match overrideTimeout environment s.timeout with
    | .error e => (s, some e)
    | .ok timeout =>
      let s := { s with timeout := timeout }
      match overrideFlag environment traceVariable s.trace with
      | .error e => (s, some e)
      | .ok trace => ({ s with trace := trace }, none)

end Settings

end CallScript
