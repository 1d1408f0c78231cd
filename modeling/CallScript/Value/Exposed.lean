import CallScript.Core.Registry

/-!
# The methods a value exposes

A script may call a method on a value only if the value exposes it. Objects of the embedding
program expose what they list, registries what is registered, and mappings their callable entries;
every other value exposes nothing.
-/

namespace CallScript.Value

/-- A value, if it can be called. -/
def ifCallable (v : Value) : Option Value :=
  if v.isCallable then some v else none

/-- An attribute of an object: one it was given, or one it has from its kind. -/
def attribute? (names : List Scalar) (attributes : List (String × Value)) (name : String) :
    Option Value :=
  match attributes.lookup name with
  | some v => some v
  | none =>
    (InheritedMethod.all.find? (·.name = name)).map (.inherited · names attributes)

/-- The method of an object with listed methods. -/
def objectMethod? (names : List Scalar) (attributes : List (String × Value)) (name : String) :
    Option Value :=
  if names.any (Key.same · (.text name)) then (attribute? names attributes name).bind ifCallable
  else none

/-- Whether an entry of a mapping is a method: it can be called, and its key is a text. -/
def isMethodOf (entry : Scalar × Value) : Bool :=
  entry.1.text?.isSome && entry.2.isCallable

/-- The names of the methods a value exposes. -/
def methodNames (registries : Nat → Registry) : Value → List Scalar
  | .toolbox entries => entries.map (·.1)
  | .object names _ => names
  | .registry id => (registries id).names
  | .dict entries => (entries.filter isMethodOf).map (·.1)
  | .view entries => (entries.filter isMethodOf).map (·.1)
  | _ => []

/-- The method a value exposes under a name. -/
def method? (registries : Nat → Registry) (v : Value) (name : Scalar) : Option Value :=
  match v with
  | .toolbox entries => (Table.valueIn? name entries).bind ifCallable
  | .object names attributes => name.text?.bind (objectMethod? names attributes)
  | .registry id => (registries id).get? name
  | .dict entries => (Table.valueIn? name entries).bind ifCallable
  | .view entries => (Table.valueIn? name entries).bind ifCallable
  | _ => none

end CallScript.Value
