import CallScript.Raised
import CallScript.Text.Lowercase

/-!
# Log records

All records go through one family of loggers with a common level. A record is let through when its
logger belongs to the family and its level is at least that of the family. It is then handled once
by every handler of the family and, if the family passes its records on, once by every handler
around it.
-/

namespace CallScript

/-- A record. -/
structure Record where
  level : Int
  logger : String
  message : String
deriving DecidableEq

namespace Record

/-- The levels that have a name. -/
def namedLevels : List (Int × String) :=
  [(0, "NOTSET"), (10, "DEBUG"), (20, "INFO"), (30, "WARNING"), (40, "ERROR"), (50, "CRITICAL")]

/-- The name of a level. -/
def levelName (level : Int) : String :=
  (namedLevels.lookup level).getD ("Level " ++ toString level)

/-- A record as a line of output, after the time. -/
def line (r : Record) : String :=
  " - " ++ r.logger ++ " - " ++ levelName r.level ++ " - " ++ r.message ++ "\n"

end Record

/-- The state of the family of loggers. -/
structure Logger where
  level : Nat := 0
  /-- How many handlers the family has. -/
  handlers : Nat := 0
  /-- Whether records are passed on to the handlers around the family. -/
  propagate : Bool := true
  /-- How many handlers there are around the family. -/
  around : Nat := 0
deriving DecidableEq

namespace Logger

/-- The name of the family. -/
def family : String := "zcw"

/-- The logger of the interpreter. -/
def interpreter : String := "zcw.runtime.interpreter"

/-- The logger of registries. -/
def registry : String := "zcw.runtime.registry"

/-- The logger of runners. -/
def runner : String := "zcw.runner"

/-- Whether a logger belongs to the family. -/
def inFamily (name : String) : Bool :=
  name = family || (family ++ ".").toList.isPrefixOf name.toList

/-- The level below which records are dropped; a family without one takes that of warnings. -/
def effectiveLevel (l : Logger) : Nat := if l.level = 0 then 30 else l.level

/-- Whether a record is let through. Records of level zero or below never are. -/
def passes (l : Logger) (r : Record) : Bool :=
  inFamily r.logger && 0 < r.level && (l.effectiveLevel : Int) ≤ r.level

/-- How many handlers a record reaches that is let through. -/
def outlets (l : Logger) : Nat := l.handlers + if l.propagate then l.around else 0

/-- The record as often as it is handled. -/
def copies (l : Logger) (r : Record) : List Record :=
  if l.passes r then List.replicate l.outlets r else []

theorem eq_of_mem_copies {l : Logger} {r x : Record} (h : x ∈ l.copies r) : x = r := by
  unfold copies at h
  split at h
  · exact List.eq_of_mem_replicate h
  · cases h

/-- The levels by name. -/
def levels : List (String × Nat) :=
  [("debug", 10), ("info", 20), ("warn", 30), ("warning", 30), ("error", 40)]

/-- The level of a name in any case of letters; an unknown name stands for information. -/
def levelOfName (name : String) : Nat :=
  (levels.lookup (Text.lower name)).getD 20

/-- The level that a setting asks for. A setting that counts as false leaves the choice to the
environment variable, and without one to the default. -/
def resolveLevel (methodsOf : Nat → List Scalar) (fallback : Option String) (setting : Value) :
    Except ForeignError Nat :=
  if setting.counts methodsOf then
    match setting.text? with
    | some name => .ok (levelOfName name)
    | none => .error (.missingAttribute setting.kindName "lower")
  else .ok (levelOfName (fallback.getD "info"))

/-- Sets the level. If the family has no handler, one is installed and records are no longer passed
on. -/
def configure (l : Logger) (level : Nat) : Logger :=
  if l.handlers = 0 then { l with level := level, handlers := 1, propagate := false }
  else { l with level := level }

end Logger

end CallScript
