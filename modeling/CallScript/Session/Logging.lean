import CallScript.Session.Basic

/-!
# Setting up the log of a session

The log level is set by a setting, which may leave the choice to an environment variable. Setting
the log up also installs a handler, unless there is one already: however often it is set up, a
record is handled at most once.
-/

namespace CallScript.Log

/-- The level that a setting asks for. -/
def resolveLevel (setting : Value) : Action Nat := do
  let s ← get
  Action.ofForeign (Logger.resolveLevel s.methodsOf s.levelVariable setting)

/-- Sets the level that a setting asks for. -/
def setLevel (setting : Value) : Action Unit := do
  let level ← resolveLevel setting
  modify fun s => { s with logger := { s.logger with level := level } }

/-- Sets the level that a setting asks for, and installs a handler if there is none. -/
def configure (setting : Value) : Action Unit := do
  let level ← resolveLevel setting
  modify fun s => { s with logger := s.logger.configure level }

end CallScript.Log
