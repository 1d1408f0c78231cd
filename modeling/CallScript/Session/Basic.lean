import CallScript.Core.Registry
import CallScript.Log
import CallScript.Settings.Basic

/-!
# Sessions

A session is what one embedding program has made: registries of core methods, interpreters that
each run scripts against one registry, and runners that each drive one interpreter by settings.
They refer to each other by number, because several interpreters may share a registry and a method
that a script calls may change any of them while the script runs. A session also holds the state of
the log, what was logged, and which methods of the embedding program were invoked.

An `Action` changes a session and either succeeds or raises. What it did before it raised stays
done.
-/

namespace CallScript

/-- An invocation of a method of the embedding program. -/
structure Invocation where
  method : HostMethod
  arguments : List Value
  /-- The names of the methods that each registry had then. -/
  methodsOf : Nat → List Scalar

/-- What scripts run against: a core, variables that only the embedding program binds, and whether
each call is traced in the log. -/
structure Interpreter where
  core : Nat
  bindings : Table Scalar Value := {}
  trace : Value := .bool true

/-- What drives an interpreter: its settings say what is logged. -/
structure Runner where
  settings : Settings
  interpreter : Nat

/-- The state of a session. -/
structure Session where
  registries : List Registry := []
  interpreters : List Interpreter := []
  runners : List Runner := []
  logger : Logger := {}
  /-- The environment variable that names the log level when a setting does not. -/
  levelVariable : Option String := none
  /-- The records that were handled, by one handler after the other, oldest first. -/
  records : List Record := []
  /-- The invocations of methods of the embedding program, oldest first. -/
  invocations : List Invocation := []

instance : Inhabited Interpreter := ⟨{ core := 0 }⟩

instance : Inhabited Runner := ⟨{ settings := {}, interpreter := 0 }⟩

namespace Session

/-! ## The parts of a session -/

/-- The registry of a number. -/
def registry (s : Session) (id : Nat) : Registry := (s.registries[id]?).getD default

/-- The interpreter of a number. -/
def interpreter (s : Session) (id : Nat) : Interpreter := (s.interpreters[id]?).getD default

/-- The runner of a number. -/
def runner (s : Session) (id : Nat) : Runner := (s.runners[id]?).getD default

/-- The core that an interpreter runs scripts against. -/
def coreOf (s : Session) (id : Nat) : Registry := s.registry (s.interpreter id).core

/-- The names of the methods of a registry. -/
def methodsOf (s : Session) (id : Nat) : List Scalar := (s.registry id).names

/-- Whether a value counts as true. -/
def truthy (s : Session) (v : Value) : Bool := v.counts s.methodsOf

/-- Replaces a registry. -/
def setRegistry (s : Session) (id : Nat) (r : Registry) : Session :=
  { s with registries := s.registries.set id r }

/-- Replaces an interpreter. -/
def setInterpreter (s : Session) (id : Nat) (i : Interpreter) : Session :=
  { s with interpreters := s.interpreters.set id i }

/-- Replaces a runner. -/
def setRunner (s : Session) (id : Nat) (r : Runner) : Session :=
  { s with runners := s.runners.set id r }

/-- Logs a record: every handler that it reaches handles it. -/
def log (s : Session) (r : Record) : Session :=
  { s with records := s.records ++ s.logger.copies r }

end Session

/-- What changes a session and may raise. -/
abbrev Action := ExceptT Raised (StateM Session)

/-- A way to invoke callable values. Evaluation takes it as an argument, so that nothing need be
known about what the methods of the embedding program do. -/
abbrev Invoke := Value → List Value → Action Value

namespace Action

variable {α : Type}

/-- Performs an action. -/
def perform (action : Action α) (s : Session) : Except Raised α × Session :=
  StateT.run (ExceptT.run action) s

/-- Raises what is to be raised, if there is something. -/
def ofRaised : Except Raised α → Action α
  | .ok a => pure a
  | .error e => throw e

/-- Raises the error of a script, if there is one. -/
def ofExcept (outcome : Except ScriptError α) : Action α := ofRaised (outcome.mapError .script)

/-- Raises an error of the embedding program, if there is one. -/
def ofForeign (outcome : Except ForeignError α) : Action α := ofRaised (outcome.mapError .foreign)

/-- Logs a message. -/
def log (level : Int) (logger message : String) : Action Unit :=
  modify (·.log ⟨level, logger, message⟩)

/-- Performs an action; what it raises is reported, unless it aborts, and raised again. -/
def reporting (report : Raised → Action Unit) (action : Action α) : Action α :=
  tryCatch action fun e => do
    if e.isReported then report e
    throw e

/-- Makes a registry and gives its number. -/
def newRegistry (r : Registry) : Action Nat :=
  modifyGet fun s => (s.registries.length, { s with registries := s.registries ++ [r] })

/-- Makes an interpreter and gives its number. -/
def newInterpreter (i : Interpreter) : Action Nat :=
  modifyGet fun s => (s.interpreters.length, { s with interpreters := s.interpreters ++ [i] })

/-- Makes a runner and gives its number. -/
def newRunner (r : Runner) : Action Nat :=
  modifyGet fun s => (s.runners.length, { s with runners := s.runners ++ [r] })

end Action

end CallScript
