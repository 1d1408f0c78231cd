import CallScript.Session.Runner

/-!
# Methods of the embedding program

A host says what each method of the embedding program does. A method may act on the session, for
example bind variables or register methods, and may invoke callable values itself, so scripts and
methods may call each other. How deep they may nest is bounded by a count.
-/

namespace CallScript

/-- What the methods of an embedding program do, given a way to invoke callable values. -/
abbrev Host := Invoke → HostMethod → List Value → Action Value

namespace Host

/-- The error of calling a value that cannot be called. -/
def notCallable (v : Value) : Raised :=
  .foreign (.wrongKind ("'" ++ v.kindName ++ "' object is not callable"))

/-- How many arguments an inherited method takes. -/
def arity : InheritedMethod → Nat
  | .methodNames => 0
  | .getMethod => 1
  | .fromMapping => 1

/-- The name of the argument of an inherited method. -/
def argumentName : InheritedMethod → String
  | .fromMapping => "methods"
  | _ => "name"

/-- Whether the object itself counts among the arguments of an inherited method. -/
def countsObject : InheritedMethod → Bool
  | .fromMapping => false
  | _ => true

/-- The error of a wrong number of arguments. -/
def wrongArity (which : InheritedMethod) (given : Nat) : ForeignError :=
  let function := "HostObject." ++ which.name
  let extra := if countsObject which then 1 else 0
  let taken := arity which + extra
  if given < arity which then .missingArgument function (argumentName which)
  else
    .wrongKind (function ++ "() takes " ++ toString taken ++ " positional argument"
      ++ (if taken = 1 then "" else "s") ++ " but " ++ toString (given + extra) ++ " were given")

/-- The error of asking an object for an attribute by something that is not a text. -/
def notAttributeName (name : Value) : ForeignError :=
  .wrongKind ("attribute name must be string, not '" ++ name.kindName ++ "'")

/-- What an object answers when it is asked for a method by any value. -/
def methodAsked (names : List Scalar) (attributes : List (String × Value)) :
    Value → Except ForeignError Value
  | .scalar key =>
    match key.text? with
    | some text => .ok ((Value.objectMethod? names attributes text).getD .null)
    | none =>
      if names.any (Key.same · key) then .error (notAttributeName (.scalar key)) else .ok .null
  | _ => .ok .null

/-- The result of an inherited method. -/
def inheritedResult (which : InheritedMethod) (names : List Scalar)
    (attributes : List (String × Value)) (arguments : List Value) : Except ForeignError Value :=
  match which, arguments with
  | .methodNames, [] => .ok (.list (names.map .scalar))
  | .getMethod, [name] => methodAsked names attributes name
  | .fromMapping, [methods] => methods.mapping.map .toolbox
  | which, arguments => .error (wrongArity which arguments.length)

/-- Records an invocation. -/
def record (m : HostMethod) (arguments : List Value) : Action Unit :=
  modify fun s => { s with invocations := s.invocations ++ [⟨m, arguments, s.methodsOf⟩] }

/-- **Invoking a value**, with methods that call each other no deeper than a count. Only the methods
of the embedding program are recorded. -/
def invoke (host : Host) : Nat → Invoke
  | 0, _, _ => throw (.foreign .tooDeep)
  | depth + 1, v, arguments =>
    match v with
    | .method m => do
      record m arguments
      host (invoke host depth) m arguments
    | .inherited which names attributes =>
      Action.ofForeign (inheritedResult which names attributes arguments)
    | v => throw (notCallable v)

end Host

end CallScript
