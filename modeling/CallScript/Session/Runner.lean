import CallScript.Node.Source
import CallScript.Session.Interpreter
import CallScript.Session.Logging

/-!
# Running source text

A runner reads the whole of a source before it runs any of it, so a source with an error anywhere
runs nothing. Everything raised on the way is logged once and raised again.
-/

namespace CallScript.Runner

/-- The setting of the log level that is in force: dumps ask for the lowest. -/
def levelSetting (s : Session) (settings : Settings) : Value :=
  if s.truthy settings.debug then .text "debug" else settings.logLevel

/-- The core of a new runner: the given one, or else a new one configured by the settings. -/
def chooseCore (core : Option Nat) (settings : Settings) : Action Nat :=
  match core with
  | some id => return id
  | none =>
    match settings.coreConfig with
    | .ok config => Action.newRegistry { config := config }
    | .error issues => throw (.invalid issues)

/-- Makes a runner and gives its number. -/
def create (core : Option Nat) (settings : Settings) : Action Nat := do
  let core ← chooseCore core settings
  let interpreter ← Action.newInterpreter { core := core, trace := settings.trace }
  Log.configure (levelSetting (← get) settings)
  Action.newRunner { settings := settings, interpreter := interpreter }

/-- Whether the settings of a runner ask for dumps. -/
def dumps (id : Nat) : Action Bool := do
  let s ← get
  return s.truthy (s.runner id).settings.debug

/-- Logs a token. One whose payload cannot be written leaves no record. -/
def dumpToken (t : Token) : Action Unit := do
  match t.value.display (← get).methodsOf with
  | .ok shown => Action.log 10 Logger.runner ("Token(" ++ t.kind.name ++ ", " ++ shown ++ ")")
  | .error _ => pure ()

/-- Logs the tokens of a source, the end of input left out, if dumps are asked for. -/
def dumpTokens (id : Nat) (tokens : List Token) : Action Unit := do
  if ← dumps id then tokens.dropLast.forM dumpToken

/-- Logs a tree, if dumps are asked for. -/
def dumpTree (id : Nat) (program : Node) : Action Unit := do
  if ← dumps id then
    Action.log 10 Logger.runner ("AST:\n" ++ (← Action.ofForeign (program.text 0)))

/-- Reads and interprets a source. -/
def execute (invoke : Invoke) (id : Nat) (source : String) : Action Unit := do
  let tokens ← Action.ofExcept (tokenize source)
  dumpTokens id tokens
  let program ← Action.ofExcept (parse tokens)
  dumpTree id program
  Interpreter.interpret invoke ((← get).runner id).interpreter program

/-- Logs what a run raised. An error whose text cannot be made raises another. -/
def logFailure (e : Raised) : Action Unit := do
  let brief ← Action.ofForeign (e.brief (← get).methodsOf)
  Action.log 40 Logger.runner ("Execution error: " ++ brief)

/-- **Running a source**: reading it, interpreting it and reporting what it raises. -/
def run (invoke : Invoke) (id : Nat) (source : String) : Action Unit :=
  Action.reporting logFailure (execute invoke id source)

/-- Turns dumps on or off, and with them the log level. -/
def setDebug (id : Nat) (enabled : Value) : Action Unit := do
  let s ← get
  let r := s.runner id
  let settings := { r.settings with debug := enabled }
  set (s.setRunner id { r with settings := settings })
  Log.setLevel (levelSetting s settings)

/-- Runs a source on a new runner and gives the number of its interpreter. -/
def runOnce (invoke : Invoke) (core : Option Nat) (settings : Settings) (source : String) :
    Action Nat := do
  let id ← create core settings
  run invoke id source
  return ((← get).runner id).interpreter

end CallScript.Runner
