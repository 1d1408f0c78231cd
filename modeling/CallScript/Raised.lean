import CallScript.Core.Config
import CallScript.ScriptError

/-!
# What a run can raise

Running a script raises an error of the script, an error of the embedding program's own making, or
the issues of a configuration.
-/

namespace CallScript

/-- What a run can raise. -/
inductive Raised where
  | script (e : ScriptError)
  | foreign (e : ForeignError)
  | invalid (issues : List FieldIssue)

namespace Raised

/-- The text of what was raised, given the names of the methods of each registry. -/
def text (methodsOf : Nat → List Scalar) : Raised → Except ForeignError String
  | script e => e.text methodsOf
  | foreign e => e.text methodsOf
  | invalid issues => .ok (toString issues.length ++ " invalid fields")

/-- What was raised in one line, as far as its maker keeps to one line. -/
def brief (methodsOf : Nat → List Scalar) : Raised → Except ForeignError String
  | script e => e.brief methodsOf
  | foreign e => e.brief methodsOf
  | invalid issues => .ok ("ValidationError: " ++ toString issues.length ++ " invalid fields")

/-- Whether what was raised is reported on its way. -/
def isReported : Raised → Bool
  | foreign e => !e.aborts
  | _ => true

end Raised

end CallScript
