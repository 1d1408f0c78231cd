import CallScript.Value.Basic

/-!
# Errors of the embedding program

Methods of the embedding program fail in ways of their own, and so does the misuse of a value. Such
an error has a kind, which is only a name here, and arguments, which may be any values. A few kinds
*abort*, which means that they pass through without being reported on the way.
-/

namespace CallScript

/-- An error of the embedding program. -/
structure ForeignError where
  kind : String
  arguments : List Value := []
  aborts : Bool := false

namespace ForeignError

/-! ## Kinds -/

/-- The kind whose text shows its only argument in quotes: the failed look-up of a key. -/
def keyLookup : String := "KeyError"

/-- The kind of a failure of the system that says nothing more. -/
def system : String := "OSError"

/-- The kinds of failures of the system. -/
def systemKinds : List String :=
  [system, "BlockingIOError", "BrokenPipeError", "ChildProcessError", "ConnectionAbortedError",
    "ConnectionError", "ConnectionRefusedError", "ConnectionResetError", "FileExistsError",
    "FileNotFoundError", "InterruptedError", "IsADirectoryError", "NotADirectoryError",
    "PermissionError", "ProcessLookupError", "TimeoutError"]

/-- The kinds of failures of the system that have numbers. -/
def systemNumbers : List (Scalar × String) :=
  [(1, "PermissionError"), (2, "FileNotFoundError"), (3, "ProcessLookupError"),
    (4, "InterruptedError"), (10, "ChildProcessError"), (11, "BlockingIOError"),
    (13, "PermissionError"), (17, "FileExistsError"), (20, "NotADirectoryError"),
    (21, "IsADirectoryError"), (32, "BrokenPipeError"), (103, "ConnectionAbortedError"),
    (104, "ConnectionResetError"), (108, "BrokenPipeError"), (110, "TimeoutError"),
    (111, "ConnectionRefusedError"), (114, "BlockingIOError"), (115, "BlockingIOError")].map
      fun entry => (.int entry.1, entry.2)

/-- Other names of the plain failure of the system. -/
def systemAliases : List String := ["IOError", "EnvironmentError"]

/-- The kinds that abort. -/
def abortingKinds : List String :=
  ["HostAbort", "BaseException", "KeyboardInterrupt", "SystemExit", "GeneratorExit"]

/-- The kind of a failure of the system with a number and a description, and perhaps more. -/
def numberedKind (kind : String) : List Value → String
  | .scalar number :: _ :: more =>
    if kind = system && more.length ≤ 3 then
      (Table.valueIn? number systemNumbers).getD kind
    else kind
  | _ => kind

/-- An error of a named kind. A plain failure of the system whose number is known has the kind of
that number. -/
def ofKind (name : String) (arguments : List Value) : ForeignError :=
  let kind := if systemAliases.contains name then system else name
  ⟨numberedKind kind arguments, arguments, abortingKinds.contains kind⟩

/-! ## Misused values -/

/-- A value was used in a way its kind does not allow. -/
def wrongKind (message : String) : ForeignError := ⟨"TypeError", [.text message], false⟩

/-- A value is of the right kind and still not usable. -/
def wrongValue (message : String) : ForeignError := ⟨"ValueError", [.text message], false⟩

/-- A value lacks an attribute. -/
def missingAttribute (kind name : String) : ForeignError :=
  ⟨"AttributeError", [.text ("'" ++ kind ++ "' object has no attribute '" ++ name ++ "'")], false⟩

/-- A value that has no items was gone through. -/
def notIterable (kind : String) : ForeignError :=
  wrongKind ("'" ++ kind ++ "' object is not iterable")

/-- A value that has no items was asked for one. -/
def notSubscriptable (kind : String) : ForeignError :=
  wrongKind ("'" ++ kind ++ "' object is not subscriptable")

/-- A value that has no length was asked for it. -/
def noLength (kind : String) : ForeignError :=
  wrongKind ("object of type '" ++ kind ++ "' has no len()")

/-- A value that cannot be a key was used as one. -/
def notKey (kind : String) : ForeignError :=
  wrongKind ("unhashable type: '" ++ kind ++ "'")

/-- A value without a data form was asked for it. -/
def notData (kind : String) : ForeignError :=
  wrongKind ("Object of type " ++ kind ++ " is not JSON serializable")

/-- A function was given an argument under a name that it does not know, or under the name of the
object that it belongs to. -/
def surplusArgument (function name : String) : ForeignError :=
  if name = "self" then
    wrongKind (function ++ "() got multiple values for argument '" ++ name ++ "'")
  else wrongKind (function ++ "() got an unexpected keyword argument '" ++ name ++ "'")

/-- A function was not given an argument that it needs. -/
def missingArgument (function name : String) : ForeignError :=
  wrongKind (function ++ "() missing 1 required positional argument: '" ++ name ++ "'")

/-- Methods that call scripts that call methods, and so on, too deep. -/
def tooDeep : ForeignError := ⟨"RecursionError", [.text "maximum recursion depth exceeded"], false⟩

end ForeignError

end CallScript
