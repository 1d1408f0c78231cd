import CallScript.Node.Basic
import CallScript.Session.Core
import CallScript.Value.Exposed

/-!
# Evaluating scripts

A statement is a call. Its arguments are evaluated from left to right; only then are its object and
its method looked up, so a method called by an argument may still change what they are. Before the
call a trace is logged, and afterwards the error if the method raised one. Evaluation never binds a
variable itself.
-/

namespace CallScript.Interpreter

/-! ## Looking up -/

/-- What an identifier stands for: the value bound to it, or else its own name. -/
def resolve (i : Interpreter) (name : String) : Value :=
  (i.bindings.get? (.text name)).getD (.unresolved name)

/-- The error of a call on something that has no methods. -/
def unsupportedTarget (kind : NodeKind) : ScriptError where
  cause := .unsupportedCallTarget (.text kind.name)
  message := .text ("Cannot call a method on node type: " ++ kind.name)

/-- The error of a call without a method. -/
def incompleteCall : ScriptError where
  cause := .unsupportedCallTarget (.text "INCOMPLETE_CALL")
  message := .text "Call node has no method to invoke"

/-- The error of a node that has no value. -/
def unknownNodeKind (kind : NodeKind) : ScriptError where
  cause := .unknownNodeKind (.text kind.name)
  message := .text ("Unknown node type: " ++ kind.name)

/-- The error of a core method that is not registered. -/
def unknownCoreMethod (core : Registry) (name : String) : ScriptError where
  cause := .unknownCoreMethod (.text name) (.list (core.names.map .scalar))
  message := .text ("Core method not found: " ++ name)

/-- The error of an object that is not bound. -/
def undefinedVariable (i : Interpreter) (name : String) : ScriptError where
  cause := .undefinedVariable (.text name) (.list (i.bindings.names.map .scalar))
  message := .text ("Undefined variable: " ++ name)

/-- The error of an object that does not expose a method. -/
def unknownMethod (object method : String) (available : List Scalar) : ScriptError where
  cause := .unknownMethod (.text object) (.text method) (.list (available.map .scalar))
  message := .text ("Object " ++ object ++ " has no method " ++ method)

/-- What a call goes to: a method and the label by which the log refers to it. -/
structure Target where
  label : String
  method : Value

/-- The core method of a name. -/
def coreTarget (s : Session) (i : Nat) (name : String) : Except ScriptError Target :=
  match (s.coreOf i).get? (.text name) with
  | some method => .ok ⟨"core." ++ name, method⟩
  | none => .error (unknownCoreMethod (s.coreOf i) name)

/-- The method of a name that the value bound to an object exposes. -/
def objectTarget (s : Session) (i : Nat) (object name : String) : Except ScriptError Target :=
  match (s.interpreter i).bindings.get? (.text object) with
  | none => .error (undefinedVariable (s.interpreter i) object)
  | some value =>
    match value.method? s.registry (.text name) with
    | some method => .ok ⟨object ++ "." ++ name, method⟩
    | none => .error (unknownMethod object name (value.methodNames s.registry))

/-- The name that a node carries. -/
def nameOf (s : Session) (node : Node) : Except Raised String :=
  (node.value.plain s.methodsOf).mapError .foreign

/-- What a call goes to, by its object and its method. -/
def target (s : Session) (i : Nat) (object method : Node) : Except Raised Target := do
  let name ← nameOf s method
  match object.kind with
  | .core => (coreTarget s i name).mapError .script
  | .identifier => (objectTarget s i (← nameOf s object) name).mapError .script
  | kind => throw (.script (unsupportedTarget kind))

/-- The error of a call that lacks an object or a method. -/
def shortCall : List Node → ScriptError
  | first :: _ => if first.kind = .method then unsupportedTarget .method else incompleteCall
  | [] => incompleteCall

/-! ## Evaluating -/

/-- The trace of a call. -/
def traceMessage (s : Session) (label : String) (arguments : List Value) :
    Except ForeignError String :=
  (arguments.mapM (Value.render s.methodsOf)).map fun shown =>
    "Calling " ++ label ++ "(" ++ Text.joinWith ", " shown ++ ")"

/-- Logs the trace of a call if calls are traced. Arguments that cannot be written are an error, and
then the call is not made. -/
def logTrace (i : Nat) (label : String) (arguments : List Value) : Action Unit := do
  let s ← get
  if s.truthy (s.interpreter i).trace then
    Action.log 20 Logger.interpreter (← Action.ofForeign (traceMessage s label arguments))

/-- Logs what a call raised. An error whose text cannot be made leaves no record. -/
def logFailure (label : String) (e : Raised) : Action Unit := do
  match e.text (← get).methodsOf with
  | .ok text =>
    Action.log 40 Logger.interpreter ("Error while executing " ++ label ++ ": " ++ text)
  | .error _ => pure ()

/-- Invokes what a call goes to. -/
def dispatch (invoke : Invoke) (i : Nat) (t : Target) (arguments : List Value) :
    Action Value := do
  logTrace i t.label arguments
  Action.reporting (logFailure t.label) (invoke t.method arguments)

/-- Makes a call whose arguments have been evaluated. -/
def call (invoke : Invoke) (i : Nat) (object method : Node) (arguments : List Value) :
    Action Value := do
  let s ← get
  let t ← Action.ofRaised (target s i object method)
  dispatch invoke i t arguments

mutual

/-- **The value of a node.** A program evaluates its statements and has no value of its own. -/
def evaluate (invoke : Invoke) (i : Nat) : Node → Action Value
  | ⟨.program, _, children⟩ => do
    let _ ← evaluateAll invoke i children
    return .null
  | ⟨.call, _, children⟩ => evaluateCall invoke i children
  | ⟨.string, value, _⟩ => return value
  | ⟨.number, value, _⟩ => return value
  | ⟨.identifier, value, _⟩ => do
    let s ← get
    return resolve (s.interpreter i) (← Action.ofRaised (nameOf s ⟨.identifier, value, []⟩))
  | ⟨kind, _, _⟩ => throw (.script (unknownNodeKind kind))

/-- The value of a call, by its children. -/
def evaluateCall (invoke : Invoke) (i : Nat) : List Node → Action Value
  | object :: method :: arguments => do
    let values ← evaluateAll invoke i arguments
    call invoke i object method values
  | children => throw (.script (shortCall children))

/-- The values of nodes, from left to right. -/
def evaluateAll (invoke : Invoke) (i : Nat) : List Node → Action (List Value)
  | [] => return []
  | n :: ns => do
    let v ← evaluate invoke i n
    let vs ← evaluateAll invoke i ns
    return v :: vs

end

/-- **Interpreting a program**: its statements are evaluated in order, whatever the kind of the
node that holds them. -/
def interpret (invoke : Invoke) (i : Nat) (program : Node) : Action Unit := do
  Action.log 20 Logger.interpreter "Starting program execution..."
  let _ ← evaluateAll invoke i program.children
  Action.log 20 Logger.interpreter "Program execution finished"

/-! ## Variables -/

/-- The value bound to a name, or the marker of a variable that is not bound. -/
def lookup (bindings : Table Scalar Value) (name : Value) : Except ForeignError Value :=
  name.key.map fun key => (key.bind bindings.get?).getD .undefined

/-- Whether a name is bound. -/
def isBound (bindings : Table Scalar Value) (name : Value) : Except ForeignError Bool :=
  name.key.map fun key => (key.bind bindings.get?).isSome

/-- Bindings with one more. -/
def bound (bindings : Table Scalar Value) (name v : Value) :
    Except ForeignError (Table Scalar Value) :=
  name.key.map fun key =>
    match key with
    | some key => bindings.insert key v
    | none => bindings

/-- Binds a variable. -/
def bind (i : Nat) (name v : Value) : Action Unit := do
  let interpreter := (← get).interpreter i
  let bindings ← Action.ofForeign (bound interpreter.bindings name v)
  modify (·.setInterpreter i { interpreter with bindings := bindings })

/-- Unbinds all variables. -/
def clear (i : Nat) : Action Unit :=
  modify fun s => s.setInterpreter i { s.interpreter i with bindings := {} }

end CallScript.Interpreter
