import CallScript.Session.Basic

/-!
# The registries of a session

The embedding program registers, removes and calls core methods and changes the configuration that
they share. Calling a method this way and calling it from a script are two paths to the same
method; only a script's call is traced.
-/

namespace CallScript

/-- A registry with the given methods, or the error of the first that cannot be registered. -/
def Registry.ofMethods (methodsOf : Nat → List Scalar) (config : CoreConfig)
    (methods : List (Scalar × Value)) : Except Raised Registry :=
  methods.foldlM (fun r entry => r.add methodsOf (.scalar entry.1) entry.2 .null)
    { config := config }

namespace Core

/-- Makes a registry from a mapping of names to methods and gives its number. -/
def create (config : CoreConfig) (methods : List (Scalar × Value)) : Action Nat := do
  let s ← get
  let r ← Action.ofRaised (Registry.ofMethods s.methodsOf config (Value.dictOf methods))
  Action.newRegistry r

/-- Registers a method. That a method is replaced is logged. -/
def add (id : Nat) (name method description : Value) : Action Unit := do
  let s ← get
  let old := s.registry id
  let new ← Action.ofRaised (old.add s.methodsOf name method description)
  let nameText := name.text?.getD ""
  if old.contains (.text nameText) then
    Action.log 10 Logger.registry ("Replacing core method '" ++ nameText ++ "'")
  modify (·.setRegistry id new)

/-- The method of a name, which may be any value that can be a key. -/
def find? (id : Nat) (name : Value) : Action (Option Value) := do
  let key ← Action.ofForeign name.key
  return key.bind ((← get).registry id).get?

/-- Whether a name is registered. -/
def contains (id : Nat) (name : Value) : Action Bool :=
  return (← find? id name).isSome

/-- Removes a method and tells whether it was there. -/
def remove (id : Nat) (name : Value) : Action Bool := do
  let there ← contains id name
  match name with
  | .scalar key => modify fun s => s.setRegistry id ((s.registry id).remove key)
  | _ => pure ()
  return there

/-- The method of a name that has to be registered. -/
def require (id : Nat) (name : Value) : Action Value := do
  match ← find? id name with
  | some method => return method
  | none =>
    let s ← get
    throw ((s.registry id).refuse s.methodsOf name)

/-- The description of a name. -/
def describedAs (id : Nat) (name : Value) : Action Value := do
  let key ← Action.ofForeign name.key
  return (key.map ((← get).registry id).description).getD .null

/-- What is told about a registered method. -/
def describe (id : Nat) (name : Value) : Action MethodInfo := do
  let method ← require id name
  match Registry.infoOf (name.text?.getD "") method (← describedAs id name) with
  | .ok info => return info
  | .error issues => throw (.invalid issues)

/-- Calls a method by its name. -/
def call (invoke : Invoke) (id : Nat) (name : Value) (arguments : List Value) : Action Value := do
  let method ← require id name
  invoke method arguments

/-- Changes fields of the configuration and gives the whole configuration. One name is not free for
a field. -/
def updateConfig (id : Nat) (changes : List (String × Value)) : Action CoreConfig := do
  if (changes.map (·.1)).contains "self" then
    throw (.foreign (.surplusArgument "CoreRegistry.update_config" "self"))
  let s ← get
  match (s.registry id).updateConfig changes with
  | .ok r =>
    set (s.setRegistry id r)
    return r.config
  | .error issues => throw (.invalid issues)

end Core

end CallScript
