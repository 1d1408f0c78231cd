import CallScript.Proofs.Agreement
import CallScript.Proofs.StatementOutcomes

/-!
# Two paths to a core method

The embedding program calls a core method by its name (`Core.call`), and a script calls it on the
core or on a variable that the registry is bound to. Looking up, refusing and invoking are written
out for each of the three, and a script's call is traced and its error reported besides. All three
come to the same but for the log (`Action.ComesTo`), with one exception: where calls are traced, a
script's call with an argument that cannot be written is not made, and the embedding program's is.

The arguments of a script's call are evaluated first, and whatever they call may change the
registry, the variables and anything else. So the paths are compared in the session that the
arguments leave, where the method is looked up.

Nothing is assumed of the methods. A script's method finds a trace in the log that it would not find
otherwise, so a method that reads the log may tell the paths apart; but that trace is all that it
finds different. Methods that do not read the log (`Invoke.IgnoresRecords`), as all methods that use
a session by its operations (`Host.ignoresRecords_ofProcedures`), cannot tell.
-/

namespace CallScript

open CallScript.Action

variable {α : Type}

/-! ## Outcomes up to the log -/

/-- The pairs of sessions that only the log tells apart. -/
def Relogged (σ : Bool → Session) : Prop := ∀ k, (σ k).unlogged = (σ true).unlogged

/-- Changing both sessions in a way that does not depend on what was logged. -/
theorem Relogged.map {σ : Bool → Session} (h : Relogged σ) {f : Session → Session}
    (hf : ∀ s, (f s).unlogged = f s.unlogged) : Relogged fun k => f (σ k) := by
  intro k
  show (f (σ k)).unlogged = (f (σ true)).unlogged
  rw [hf, hf, h k]

variable {invoke : Invoke} {i : Nat} {s t : Session} {arguments : List Node} {values : List Value}

/-- The host's path: looking up, then refusing or invoking. -/
theorem Core.perform_call (invoke : Invoke) (id : Nat) (n : String) (values : List Value)
    (s : Session) :
    (Core.call invoke id (.text n) values).perform s
      = match (s.registry id).get? (.text n) with
        | some f => (invoke f values).perform s
        | none => (.error (.script ((s.registry id).notFound (.text n) n)), s) := by
  have hfind : (Core.find? id (.text n)).perform s
      = (.ok ((s.registry id).get? (.text n)), s) := rfl
  unfold Core.call Core.require
  rw [perform_bind, perform_bind, hfind]
  cases (s.registry id).get? (.text n) <;> rfl

end CallScript
