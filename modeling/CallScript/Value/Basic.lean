import CallScript.Moment
import CallScript.Scalar

/-!
# Values

What a script computes with and what an embedding program hands to it. Besides data – scalars,
lists and dictionaries – there are the marker of an unbound variable and the objects of the
embedding program. A registry of core methods is shared and may change, so a value only refers to it
by number; what depends on its present contents takes the names of its methods as an argument.
-/

namespace CallScript

/-- A method of the embedding program. What it does is not part of the value. -/
structure HostMethod where
  id : Nat
  label : String
  isAsync : Bool := false
  description : Option String := none
deriving DecidableEq

/-- The methods that every object with listed methods has. -/
inductive InheritedMethod where
  | methodNames
  | getMethod
  | fromMapping
deriving DecidableEq

namespace InheritedMethod

/-- All inherited methods. -/
def all : List InheritedMethod := [methodNames, getMethod, fromMapping]

/-- The name of an inherited method. -/
def name : InheritedMethod → String
  | methodNames => "method_names"
  | getMethod => "get_method"
  | fromMapping => "from_mapping"

end InheritedMethod

/-- An object without methods, by what is known of it. -/
inductive Handle where
  /-- Its display form. -/
  | shown (text : String)
  /-- The moment that it is. -/
  | moment (m : Moment)
  /-- It has no display form: asking for one raises an error of a kind with a message. -/
  | mute (kind message : String) (aborts : Bool)
deriving DecidableEq

/-- The name of the kind of an object without methods. -/
def Handle.kindName : Handle → String
  | moment m => m.kindName
  | _ => "Opaque"

/-- A value. -/
inductive Value where
  /-- Data without parts. -/
  | scalar (s : Scalar)
  /-- The marker of a variable that is not bound. -/
  | undefined
  | list (items : List Value)
  | dict (entries : List (Scalar × Value))
  /-- A mapping that is not a dictionary. -/
  | view (entries : List (Scalar × Value))
  /-- An object without methods. -/
  | handle (h : Handle)
  /-- An object whose methods are the callable entries of a table. -/
  | toolbox (entries : List (Scalar × Value))
  /-- An object that lists the names of its methods and has attributes. -/
  | object (names : List Scalar) (attributes : List (String × Value))
  /-- A registry of core methods. -/
  | registry (id : Nat)
  /-- A method of the embedding program. -/
  | method (m : HostMethod)
  /-- A method that an object has from its kind. -/
  | inherited (which : InheritedMethod) (names : List Scalar)
      (attributes : List (String × Value))

namespace Value

instance : Inhabited Value := ⟨scalar .null⟩

/-- Nothing. -/
@[match_pattern] abbrev null : Value := scalar .null

/-- A truth value. -/
@[match_pattern] abbrev bool (b : Bool) : Value := scalar (.bool b)

/-- An integer. -/
@[match_pattern] abbrev int (n : Int) : Value := scalar (.int n)

/-- A number. -/
@[match_pattern] abbrev float (x : Binary64) : Value := scalar (.float x)

/-- A text. -/
@[match_pattern] abbrev text (s : String) : Value := scalar (.text s)

/-- An identifier that stands for its own name. -/
@[match_pattern] abbrev unresolved (name : String) : Value := scalar (.unresolved name)

/-- A list of texts. -/
def texts (names : List String) : Value := list (names.map text)

/-- A dictionary from entries given one after the other. -/
def dictOf (entries : List (Scalar × Value)) : List (Scalar × Value) :=
  (Table.ofList entries).entries

/-- The entry of a name in a dictionary. -/
def named? (name : String) (entries : List (Scalar × Value)) : Option Value :=
  Table.valueIn? (.text name) entries

/-- The text of a value that is one, an identifier that stands for itself included. -/
def text? : Value → Option String
  | scalar s => s.text?
  | _ => none

/-- Whether a value is nothing. -/
def isNull : Value → Bool
  | null => true
  | _ => false

/-- Whether a value can be called. -/
def isCallable : Value → Bool
  | method _ => true
  | inherited _ _ _ => true
  | _ => false

/-- The name of a value's kind. -/
def kindName : Value → String
  | scalar s => s.kindName
  | undefined => "_Undefined"
  | list _ => "list"
  | dict _ => "dict"
  | view _ => "mappingproxy"
  | handle h => h.kindName
  | toolbox _ => "MappingHostObject"
  | object _ _ => "HostObject"
  | registry _ => "CoreRegistry"
  | method _ => "function"
  | inherited _ _ _ => "method"

/-- Whether a value counts as true, given how many methods each registry has. Empty data, the
marker of an unbound variable and an empty registry do not. -/
def truthy (registrySize : Nat → Nat) : Value → Bool
  | scalar s => s.truthy
  | undefined => false
  | list items => !items.isEmpty
  | dict entries => !entries.isEmpty
  | view entries => !entries.isEmpty
  | registry id => registrySize id != 0
  | _ => true

/-- What a value gives when one goes through it: the characters of a text, the items of a list, the
keys of a mapping. -/
def items? : Value → Option (List Value)
  | scalar s => s.text?.map fun t => t.toList.map fun c => text (String.ofList [c])
  | list items => some items
  | dict entries => some (entries.map (scalar ·.1))
  | view entries => some (entries.map (scalar ·.1))
  | _ => none

end Value

end CallScript
