import CallScript.Proofs.StatementOutcomes

/-!
# The order of evaluation

In a tree made by hand the arguments of a call may be calls and programs themselves, to any depth.
Such a tree is evaluated in *post-order*: a node after its parts and the parts from left to right,
where the parts of a program are its statements and those of a call are its arguments, but not its
object and its method (`Evaluated`).

`visits` lists the positions that are evaluated in this order, and evaluating a tree is going
through that list (`Interpreter.turns_visits`): every node in its turn takes the values of its parts
from a stack, does its own part and puts its value on the stack (`Interpreter.turn`). What stays on
the stack meanwhile is out of reach for the methods that are invoked, so a value that was computed
is not affected by what they bind. A list has no depth, and so what can happen in one turn
(`Interpreter.goes_turn`) can be carried over to evaluation as a whole: which calls are dispatched
and in which order (`Interpreter.Proceeds`), and what each of them goes to (`Interpreter.Follows`).
-/

namespace CallScript

/-! ## Performing actions -/

namespace Action

variable {α β : Type}

end Action

open CallScript.Action

/-! ## Positions in a tree -/

/-- A position in a tree: on each level the number of a child. -/
abbrev Site := List Nat

/-- **Post-order** of positions: what stands under a node comes before it, and of two children the
left one comes first, with everything under it. -/
inductive Site.Before : Site → Site → Prop
  | under (k : Nat) (path : Site) : Before (k :: path) []
  | left {j k : Nat} (h : j < k) (path path' : Site) : Before (j :: path) (k :: path')
  | within (k : Nat) {path path' : Site} (h : Before path path') : Before (k :: path) (k :: path')

/-- A node and its position. -/
@[ext] structure Visit where
  site : Site
  node : Node

/-- A visit, seen from further up. -/
def Visit.under (path : Site) (visit : Visit) : Visit := ⟨path ++ visit.site, visit.node⟩

mutual

/-- **The visits of a tree in post-order.** -/
def visits : Node → List Visit
  | ⟨.program, value, children⟩ => visitsFrom 0 children ++ [⟨[], ⟨.program, value, children⟩⟩]
  | ⟨.call, value, object :: method :: arguments⟩ =>
    visitsFrom 2 arguments ++ [⟨[], ⟨.call, value, object :: method :: arguments⟩⟩]
  | node => [⟨[], node⟩]

/-- The visits of children, the first of which has the given number. -/
def visitsFrom (k : Nat) : List Node → List Visit
  | [] => []
  | node :: nodes => (visits node).map (·.under [k]) ++ visitsFrom (k + 1) nodes

end

namespace Node

/-- The children of a node that are evaluated. -/
def parts : Node → List Node
  | ⟨.program, _, children⟩ => children
  | ⟨.call, _, _ :: _ :: arguments⟩ => arguments
  | _ => []

mutual

/-- Induction over the parts of nodes. -/
theorem parts_induction {P : Node → Prop} (h : ∀ node : Node, (∀ n ∈ node.parts, P n) → P node) :
    ∀ node, P node
  | ⟨.program, _, children⟩ => h _ (parts_induction_all h children)
  | ⟨.call, _, _ :: _ :: arguments⟩ => h _ (parts_induction_all h arguments)
  | ⟨.call, _, [_]⟩ => h _ fun _ hn => by cases hn
  | ⟨.call, _, []⟩ => h _ fun _ hn => by cases hn
  | ⟨.string, _, _⟩ => h _ fun _ hn => by cases hn
  | ⟨.number, _, _⟩ => h _ fun _ hn => by cases hn
  | ⟨.identifier, _, _⟩ => h _ fun _ hn => by cases hn
  | ⟨.core, _, _⟩ => h _ fun _ hn => by cases hn
  | ⟨.method, _, _⟩ => h _ fun _ hn => by cases hn
  | ⟨.array, _, _⟩ => h _ fun _ hn => by cases hn

theorem parts_induction_all {P : Node → Prop}
    (h : ∀ node : Node, (∀ n ∈ node.parts, P n) → P node) : ∀ nodes : List Node, ∀ n ∈ nodes, P n
  | [] => fun _ hn => by cases hn
  | node :: nodes =>
    List.forall_mem_cons.mpr ⟨parts_induction h node, parts_induction_all h nodes⟩

end

end Node

namespace Interpreter

variable (invoke : Invoke) (i : Nat)

/-- **A node's own part** in its evaluation, once its parts have values. -/
def own : Node → List Value → Action Value
  | ⟨.program, _, _⟩, _ => return .null
  | ⟨.call, _, object :: method :: _⟩, values => call invoke i object method values
  | ⟨.call, _, children⟩, _ => throw (.script (shortCall children))
  | ⟨.string, value, _⟩, _ => return value
  | ⟨.number, value, _⟩, _ => return value
  | ⟨.identifier, value, _⟩, _ => do
    let s ← get
    return resolve (s.interpreter i) (← ofRaised (nameOf s ⟨.identifier, value, []⟩))
  | ⟨kind, _, _⟩, _ => throw (.script (unknownNodeKind kind))

/-- **The turn of a node**: it takes the values of its parts from the stack, the last of them first,
and leaves its own value there. -/
def turn (stack : List Value) (node : Node) : Action (List Value) := do
  let v ← own invoke i node (stack.take node.parts.length).reverse
  return v :: stack.drop node.parts.length

/-- The turns of visited nodes, one after the other. -/
def turns (visits : List Visit) (stack : List Value) : Action (List Value) :=
  visits.foldlM (fun stack visit => turn invoke i stack visit.node) stack

/-- Nodes have values, each in the session that the nodes before it left. -/
inductive Yields : List Node → Session → List Value → Session → Prop
  | nil (s : Session) : Yields [] s [] s
  | cons {node : Node} {nodes : List Node} {s t u : Session} {v : Value} {vs : List Value}
      (h : (evaluate invoke i node).perform s = (.ok v, t)) (hs : Yields nodes t vs u) :
      Yields (node :: nodes) s (v :: vs) u

variable {invoke i}

/-- There is one value for each node. -/
theorem Yields.length_eq {nodes : List Node} {s t : Session} {vs : List Value}
    (h : Yields invoke i nodes s vs t) : vs.length = nodes.length := by
  induction h with
  | nil => rfl
  | cons _ _ ih => rw [List.length_cons, List.length_cons, ih]

end Interpreter

/-! ## Dispatches -/

/-- **A dispatch**: where the call stands, what it goes to and with which values, and what came of
it. The session before is the one in which the call was looked up. -/
structure Dispatched where
  site : Site
  target : Interpreter.Target
  arguments : List Value
  before : Session
  result : Except Raised Value
  after : Session

namespace Interpreter

variable {invoke invoke' : Invoke} {i : Nat}

/-- **A dispatch follows the evaluation of its arguments.** The visits of its call are made in a
row, from a session that the visits before them leave. From there the arguments have the values with
which the call is dispatched, each where its turn came. What the call goes to is looked up in the
session that the last of them leaves. Only a trace is logged before the method is invoked, and what
that raises or answers is the result. If there should be a trace and an argument cannot be written,
then that is the result and nothing is invoked. -/
def Follows (invoke : Invoke) (i : Nat) (root : Node) (s : Session) (c : Dispatched) : Prop :=
  ∃ value object method arguments earlier later stack u,
    earlier ++ (visits ⟨.call, value, object :: method :: arguments⟩).map (·.under c.site) ++ later
      = visits root
    ∧ (turns invoke i earlier []).perform s = (.ok stack, u)
    ∧ Yields invoke i arguments u c.arguments c.before
    ∧ target c.before i object method = .ok c.target
    ∧ (dispatch invoke i c.target c.arguments).perform c.before = (c.result, c.after)
    ∧ match traceMessage c.before c.target.label c.arguments, Calling.traces c.before i with
      | .error e, true => c.result = .error (.foreign e) ∧ c.after = c.before
      | _, _ => ((invoke c.target.method c.arguments).perform
          (Calling.traced c.target.label c.arguments i c.before)).1 = c.result

end Interpreter

end CallScript
