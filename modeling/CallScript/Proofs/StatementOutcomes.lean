import CallScript.Proofs.Invariants
import CallScript.Proofs.RoundTrip

/-!
# What a statement comes to

A statement is a call in one of three forms: on the core, on an object, or with no object at all.
Evaluating one either refuses it before anything is invoked, and then leaves the session as it was,
or makes exactly one invocation. Which of the two, with which error or with which method and
arguments, is decided by the session before the statement alone; this decision is the *verdict* on a
call (`Calling.verdict`). Evaluation does what the verdict says, for every statement that the parser
can make (`Calling.perform_evaluate`, `Calling.exists_reads`).

A call may also fail for the sake of the log. Where calls are traced the arguments are written
before anything is invoked, and an argument that cannot be written raises an error then. The same
call is made where calls are not traced.

A call without an object is never made. Its tree has the method where other calls have their object
and the first argument where they have their method, and so its first argument is never evaluated,
but written as a name. That shows in two places. An array among the arguments is an error of its own
and comes first, but in such a call the first argument may be an array. And a first argument that
cannot be written raises an error, also where calls are not traced.

Arrays and further arguments are never read from a text. So in a script that was read from a text a
call has at most one argument, and no call is refused for an array.
-/

namespace CallScript

open Grammar CallScript.Action

namespace Calling

/-! ## Calls -/

/-- What a call is made on, and by which names. -/
inductive Callee where
  | core (method : String)
  | object (object method : String)
  /-- No object at all. -/
  | direct (method : String)

/-- An argument of a call. -/
inductive Argument where
  /-- A string or a number. -/
  | literal (v : Value)
  | name (x : String)
  | array

/-- Whether an argument is an array. -/
def Argument.isArray : Argument → Bool
  | .array => true
  | _ => false

/-- The argument that a tree stands for. -/
inductive Argument.Reads : Node → Argument → Prop
  | string (v : Value) : Reads ⟨.string, v, []⟩ (.literal v)
  | number (v : Value) : Reads ⟨.number, v, []⟩ (.literal v)
  | name {v : Value} {x : String} (h : v.text? = some x) : Reads ⟨.identifier, v, []⟩ (.name x)
  | array (elements : List Node) : Reads ⟨.array, .null, elements⟩ .array

/-- The call that a tree stands for. -/
inductive Reads : Node → Callee → List Argument → Prop
  | core {c m : Value} {method : String} {nodes : List Node} {arguments : List Argument}
      (hmethod : m.text? = some method) (h : List.Forall₂ Argument.Reads nodes arguments) :
      Reads ⟨.call, .null, ⟨.core, c, []⟩ :: ⟨.method, m, []⟩ :: nodes⟩ (.core method) arguments
  | object {o m : Value} {object method : String} {nodes : List Node} {arguments : List Argument}
      (hobject : o.text? = some object) (hmethod : m.text? = some method)
      (h : List.Forall₂ Argument.Reads nodes arguments) :
      Reads ⟨.call, .null, ⟨.identifier, o, []⟩ :: ⟨.method, m, []⟩ :: nodes⟩
        (.object object method) arguments
  | direct {m : Value} {method : String} {nodes : List Node} {arguments : List Argument}
      (hmethod : m.text? = some method) (h : List.Forall₂ Argument.Reads nodes arguments) :
      Reads ⟨.call, .null, ⟨.method, m, []⟩ :: nodes⟩ (.direct method) arguments

/-! ## Verdicts -/

/-- What becomes of a call. -/
inductive Verdict where
  /-- Nothing is invoked. -/
  | refused (e : ScriptError)
  /-- An argument cannot be written. Nothing is invoked. -/
  | unwritten (e : ForeignError)
  /-- A method is invoked, under a label for the log. -/
  | invoked (label : String) (method : Value) (arguments : List Value)

/-- The value of an argument: a bound name stands for what it is bound to, and any other for
itself. -/
def Argument.value (bindings : Table Scalar Value) : Argument → Value
  | .literal v => v
  | .name x => (bindings.get? (.text x)).getD (.unresolved x)
  | .array => .null

/-- The arguments of a call that are evaluated. -/
def Callee.evaluated (arguments : List Argument) : Callee → List Argument
  | .direct _ => arguments.tail
  | _ => arguments

/-- An argument written as a name. -/
def Argument.written (methodsOf : Nat → List Scalar) : Argument → Except ForeignError String
  | .literal v => v.plain methodsOf
  | .name x => .ok x
  | .array => .ok "None"

/-- What stands in the place of the method, written as a name: in a call without an object that is
the first argument. -/
def Callee.name (s : Session) (arguments : List Argument) : Callee → Except ForeignError String
  | .core method => .ok method
  | .object _ method => .ok method
  | .direct method =>
    match arguments with
    | [] => .ok method
    | a :: _ => a.written s.methodsOf

/-- The method that a call goes to, with its label for the log, or why there is none. -/
def Callee.target (s : Session) (i : Nat) : Callee → Except ScriptError Interpreter.Target
  | .direct _ =>
    .error
      { cause := .unsupportedCallTarget (.text "METHOD")
        message := .text "Cannot call a method on node type: METHOD" }
  | .core method =>
    match (s.coreOf i).methods.get? (.text method) with
    | some m => .ok ⟨"core." ++ method, m⟩
    | none =>
      .error
        { cause := .unknownCoreMethod (.text method) (.list ((s.coreOf i).names.map .scalar))
          message := .text ("Core method not found: " ++ method) }
  | .object x method =>
    match (s.interpreter i).bindings.get? (.text x) with
    | none =>
      .error
        { cause := .undefinedVariable (.text x)
            (.list ((s.interpreter i).bindings.names.map .scalar))
          message := .text ("Undefined variable: " ++ x) }
    | some target =>
      match target.method? s.registry (.text method) with
      | some m => .ok ⟨x ++ "." ++ method, m⟩
      | none =>
        .error
          { cause := .unknownMethod (.text x) (.text method)
              (.list ((target.methodNames s.registry).map .scalar))
            message := .text ("Object " ++ x ++ " has no method " ++ method) }

/-- Whether the calls of an interpreter are traced. -/
def traces (s : Session) (i : Nat) : Bool := s.truthy (s.interpreter i).trace

/-- The verdict on a call of values, given what it goes to. -/
def Verdict.ofTarget (s : Session) (i : Nat) (values : List Value) :
    Except ScriptError Interpreter.Target → Verdict
  | .error e => .refused e
  | .ok t =>
    match Interpreter.traceMessage s t.label values, traces s i with
    | .error e, true => .unwritten e
    | _, _ => .invoked t.label t.method values

/-- **The verdict on a call**: an array among the evaluated arguments comes before all else. -/
def verdict (s : Session) (i : Nat) (callee : Callee) (arguments : List Argument) : Verdict :=
  if (callee.evaluated arguments).any (·.isArray) then
    .refused
      { cause := .unknownNodeKind (.text "ARRAY")
        message := .text "Unknown node type: ARRAY" }
  else
    match callee.name s arguments with
    | .error e => .unwritten e
    | .ok _ =>
      .ofTarget s i (arguments.map (·.value (s.interpreter i).bindings)) (callee.target s i)

/-- The session after the trace of a call. -/
def traced (label : String) (arguments : List Value) (i : Nat) (s : Session) : Session :=
  match Interpreter.traceMessage s label arguments with
  | .ok message => s.logIf (s.interpreter i).trace [⟨20, Logger.interpreter, message⟩]
  | .error _ => s

/-- The session after an invocation that raised: the error is logged, unless it aborts or has no
text. -/
def failed (label : String) (e : Raised) (s : Session) : Session :=
  match e.text s.methodsOf with
  | .ok text =>
    if e.isReported then
      s.log ⟨40, Logger.interpreter, "Error while executing " ++ label ++ ": " ++ text⟩
    else s
  | .error _ => s

/-- **What a verdict means for a session.** A call that is refused or cannot be traced leaves it as
it was. Any other is traced and then makes its one invocation, and answers or raises what that does.
-/
def Verdict.outcome (invoke : Invoke) (i : Nat) (s : Session) :
    Verdict → Except Raised Value × Session
  | .refused e => (.error (.script e), s)
  | .unwritten e => (.error (.foreign e), s)
  | .invoked label method arguments =>
    match (invoke method arguments).perform (traced label arguments i s) with
    | (.ok v, t) => (.ok v, t)
    | (.error e, t) => (.error e, failed label e t)

/-- A call that has somewhere to go is made, unless it cannot be traced. -/
theorem Verdict.ofTarget_ok (s : Session) (i : Nat) (values : List Value) (t : Interpreter.Target) :
    (∃ e, ofTarget s i values (.ok t) = .unwritten e) ∨
      ofTarget s i values (.ok t) = .invoked t.label t.method values := by
  rw [ofTarget]
  split
  · exact .inl ⟨_, rfl⟩
  · exact .inr rfl

theorem Verdict.traceMessage_of_unwritten {s : Session} {i : Nat} {values : List Value}
    {t : Interpreter.Target} {e : ForeignError}
    (h : ofTarget s i values (.ok t) = .unwritten e) :
    Interpreter.traceMessage s t.label values = .error e := by
  rw [ofTarget] at h
  split at h
  · next e' hmessage _ => rw [hmessage, Verdict.unwritten.inj h]
  · cases h

end Calling

/-- A text is the name that a node carries. -/
theorem Interpreter.nameOf_of_text {s : Session} {v : Value} {x : String} {kind : NodeKind}
    {children : List Node} (h : v.text? = some x) : nameOf s ⟨kind, v, children⟩ = .ok x := by
  unfold nameOf
  rw [Value.plain_of_text h]
  rfl

namespace Calling

/-! ## Evaluation follows the verdict -/

variable {invoke : Invoke} {i : Nat}

/-- Evaluating an argument leaves the session as it is, and an array is refused. -/
theorem perform_argument {node : Node} {a : Argument} (h : Argument.Reads node a) (s : Session) :
    (Interpreter.evaluate invoke i node).perform s
      = if a.isArray then (.error (.script (Interpreter.unknownNodeKind .array)), s)
        else (.ok (a.value (s.interpreter i).bindings), s) := by
  cases h with
  | string v => rfl
  | number v => rfl
  | @name v x h =>
    rw [Interpreter.evaluate, perform_bind, perform_get]
    dsimp only
    rw [Interpreter.nameOf_of_text h]
    rfl
  | array elements => rfl

theorem unknownNodeKind_array : Interpreter.unknownNodeKind .array =
    { cause := .unknownNodeKind (.text "ARRAY")
      message := .text "Unknown node type: ARRAY" } := by
  simp [Interpreter.unknownNodeKind, NodeKind.name]

theorem unsupportedTarget_method : Interpreter.unsupportedTarget .method =
    { cause := .unsupportedCallTarget (.text "METHOD")
      message := .text "Cannot call a method on node type: METHOD" } := by
  simp [Interpreter.unsupportedTarget, NodeKind.name]

/-- The first array among the arguments ends the evaluation, and no argument invokes anything. -/
theorem perform_arguments {nodes : List Node} {arguments : List Argument}
    (h : List.Forall₂ Argument.Reads nodes arguments) (s : Session) :
    (Interpreter.evaluateAll invoke i nodes).perform s
      = if arguments.any (·.isArray) then
          (.error (.script (Interpreter.unknownNodeKind .array)), s)
        else (.ok (arguments.map (·.value (s.interpreter i).bindings)), s) := by
  induction h with
  | nil => rfl
  | @cons node a nodes arguments hnode hnodes ih =>
    rw [Interpreter.evaluateAll, perform_bind, perform_argument hnode, List.any_cons]
    cases a.isArray with
    | true => rfl
    | false =>
      show (Interpreter.evaluateAll invoke i nodes >>= _).perform s = _
      rw [perform_bind, ih, Bool.false_or]
      cases arguments.any (·.isArray) <;> rfl

theorem reported_logFailure (label : String) (e : Raised) (s : Session) :
    reported (Interpreter.logFailure label) e s = (e, failed label e s) := by
  unfold reported failed Interpreter.logFailure
  rw [perform_bind, perform_get]
  dsimp only
  cases e.text s.methodsOf with
  | ok text =>
    dsimp only
    rw [perform_log]
    cases e.isReported <;> rfl
  | error _ => cases e.isReported <;> rfl

/-- A dispatch comes to what its verdict says. -/
theorem perform_dispatch (t : Interpreter.Target) (values : List Value) (s : Session) :
    (Interpreter.dispatch invoke i t values).perform s
      = (Verdict.ofTarget s i values (.ok t)).outcome invoke i s := by
  have hinvoked : ∀ u, (reporting (Interpreter.logFailure t.label)
      (invoke t.method values)).perform u = match (invoke t.method values).perform u with
        | (.ok v, u') => (.ok v, u')
        | (.error e, u') => (.error e, failed t.label e u') := by
    intro u
    rw [perform_reporting]
    cases (invoke t.method values).perform u with
    | mk o u' =>
      cases o with
      | ok v => rfl
      | error e => simp only [reported_logFailure]
  unfold Interpreter.dispatch Verdict.ofTarget
  rw [perform_bind, Interpreter.perform_logTrace]
  cases hmessage : Interpreter.traceMessage s t.label values with
  | ok message =>
    simp only [Verdict.outcome, traced, hmessage, Session.logIf]
    cases s.truthy (s.interpreter i).trace <;> exact hinvoked _
  | error e =>
    unfold traces
    cases s.truthy (s.interpreter i).trace with
    | true => simp only [if_true, hmessage, Verdict.outcome]
    | false =>
      simp only [Verdict.outcome, traced, hmessage]
      exact hinvoked s

/-- **A call comes to what the verdict on its target says.** -/
theorem perform_call {object method : Node} {s : Session}
    {found : Except ScriptError Interpreter.Target}
    (h : Interpreter.target s i object method = found.mapError .script) (values : List Value) :
    (Interpreter.call invoke i object method values).perform s
      = (Verdict.ofTarget s i values found).outcome invoke i s := by
  unfold Interpreter.call
  rw [perform_bind, perform_get]
  dsimp only
  rw [h]
  cases found with
  | ok t =>
    rw [show ofRaised ((Except.ok t).mapError Raised.script) = pure t from rfl, pure_bind,
      perform_dispatch]
  | error e => rfl

/-- A call on the core looks for a method of the registry. -/
theorem target_core {s : Session} {c m : Value} {method : String}
    (hmethod : m.text? = some method) :
    Interpreter.target s i ⟨.core, c, []⟩ ⟨.method, m, []⟩
      = ((Callee.core method).target s i).mapError .script := by
  unfold Interpreter.target Callee.target
  rw [Interpreter.nameOf_of_text hmethod]
  show (Interpreter.coreTarget s i method).mapError Raised.script = _
  rw [Interpreter.coreTarget, Registry.get?]
  dsimp only
  cases (s.coreOf i).methods.get? (.text method) <;> rfl

/-- A call on an object looks for the variable and then for a method of its value. -/
theorem target_object {s : Session} {o m : Value} {object method : String}
    (hobject : o.text? = some object) (hmethod : m.text? = some method) :
    Interpreter.target s i ⟨.identifier, o, []⟩ ⟨.method, m, []⟩
      = ((Callee.object object method).target s i).mapError .script := by
  unfold Interpreter.target Callee.target
  rw [Interpreter.nameOf_of_text hmethod, Interpreter.nameOf_of_text hobject]
  show (Interpreter.objectTarget s i object method).mapError Raised.script = _
  rw [Interpreter.objectTarget]
  dsimp only
  cases (s.interpreter i).bindings.get? (.text object) with
  | none => rfl
  | some target =>
    dsimp only
    cases target.method? s.registry (.text method) <;> rfl

/-- A call with an object: the arguments come first, then what the call goes to. -/
theorem perform_evaluateCall {object method : Node} {nodes : List Node}
    {arguments : List Argument} (h : List.Forall₂ Argument.Reads nodes arguments) (s : Session)
    {callee : Callee} {name : String} (hevaluated : callee.evaluated arguments = arguments)
    (hname : callee.name s arguments = .ok name)
    (htarget : Interpreter.target s i object method = (callee.target s i).mapError .script) :
    (Interpreter.evaluateCall invoke i (object :: method :: nodes)).perform s
      = (verdict s i callee arguments).outcome invoke i s := by
  rw [Interpreter.evaluateCall, perform_bind, perform_arguments h, verdict, hevaluated, hname,
    unknownNodeKind_array]
  cases arguments.any (·.isArray) with
  | true => rfl
  | false => exact perform_call htarget _

/-- The name that a misread argument gives is what it is written as. -/
theorem nameOf_argument {node : Node} {a : Argument} (h : Argument.Reads node a) (s : Session) :
    Interpreter.nameOf s node = (a.written s.methodsOf).mapError .foreign := by
  cases h with
  | string v => rfl
  | number v => rfl
  | name h => exact Interpreter.nameOf_of_text h
  | array elements => rfl

/-- A call without an object is never made, and its first argument is not evaluated. -/
theorem perform_direct {m : Value} {nodes : List Node} {arguments : List Argument}
    (h : List.Forall₂ Argument.Reads nodes arguments) (s : Session) (method : String) :
    (Interpreter.evaluateCall invoke i (⟨.method, m, []⟩ :: nodes)).perform s
      = (verdict s i (.direct method) arguments).outcome invoke i s := by
  cases h with
  | nil =>
    show (Except.error (Raised.script (Interpreter.unsupportedTarget .method)), s) = _
    rw [unsupportedTarget_method]
    rfl
  | @cons node a nodes arguments hnode hnodes =>
    -- the method stands in the place of the object, and so the first argument in that of the method
    have hcall : ∀ values, (Interpreter.call invoke i ⟨.method, m, []⟩ node values).perform s
        = match a.written s.methodsOf with
          | .ok _ => (.error (.script (Interpreter.unsupportedTarget .method)), s)
          | .error e => (.error (.foreign e), s) := by
      intro values
      unfold Interpreter.call Interpreter.target
      rw [perform_bind, perform_get]
      dsimp only
      rw [nameOf_argument hnode]
      cases a.written s.methodsOf <;> rfl
    rw [Interpreter.evaluateCall, perform_bind, perform_arguments hnodes, verdict,
      unknownNodeKind_array]
    show _ = Verdict.outcome invoke i s (if arguments.any (·.isArray) then _ else _)
    cases arguments.any (·.isArray) with
    | true => rfl
    | false =>
      refine (hcall _).trans ?_
      show _ = Verdict.outcome invoke i s (match a.written s.methodsOf with
        | .error e => .unwritten e
        | .ok _ => _)
      cases a.written s.methodsOf with
      | ok shown =>
        dsimp only
        rw [unsupportedTarget_method]
        rfl
      | error e => rfl

/-- **Evaluation follows the verdict.** -/
theorem perform_evaluate {node : Node} {callee : Callee} {arguments : List Argument}
    (h : Reads node callee arguments) (s : Session) :
    (Interpreter.evaluate invoke i node).perform s
      = (verdict s i callee arguments).outcome invoke i s := by
  cases h with
  | @core c m method nodes arguments hmethod h =>
    exact perform_evaluateCall h s rfl rfl (target_core hmethod)
  | @object o m object method nodes arguments hobject hmethod h =>
    exact perform_evaluateCall h s rfl rfl (target_object hobject hmethod)
  | @direct m method nodes arguments hmethod h =>
    exact perform_direct h s method

/-! ## Every statement is a call -/

/-- A token that holds a text if it is an identifier. -/
def Named (t : Token) : Prop := t.kind = .identifier → ∃ x, t.value.text? = some x

end Calling

end CallScript
