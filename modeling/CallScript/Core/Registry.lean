import CallScript.Raised
import CallScript.Text.Margin

/-!
# Registries of core methods

A registry is what a script reaches under the name `core`: a table of methods of the embedding
program, a table of their descriptions, and a configuration shared with them. Methods are listed in
the order of registration; registering a name again replaces the method and its description in
place.

A name is a text or an identifier that stands for itself. The two are one key, and the registry
keeps the one it was given first.
-/

namespace CallScript

namespace Registry

/-- A character that may start the name of a core method. -/
def isNameStart (c : Char) : Bool :=
  ('A' ≤ c && c ≤ 'Z') || ('a' ≤ c && c ≤ 'z') || c = '_'

/-- A character that may continue the name of a core method. -/
def isNameChar (c : Char) : Bool :=
  ('A' ≤ c && c ≤ 'Z') || ('a' ≤ c && c ≤ 'z') || ('0' ≤ c && c ≤ '9') || c = '_'

/-- A text that can name a core method: a letter or an underscore, then letters, digits and
underscores, with or without one line feed after them. -/
def isMethodName (cs : List Char) : Bool :=
  match if cs.getLast? = some '\n' then cs.dropLast else cs with
  | [] => false
  | c :: rest => isNameStart c && rest.all isNameChar

/-- Whether a scalar can name a core method. -/
def isMethodKey (key : Scalar) : Bool :=
  match key.text? with
  | some s => isMethodName s.toList
  | none => false

/-- A name of a core method. -/
abbrev MethodName := { key : Scalar // isMethodKey key = true }

theorem sound_empty : ∀ entry ∈ ({} : Table Scalar Value).entries,
    isMethodKey entry.1 = true ∧ entry.2.isCallable = true :=
  fun _ h => absurd h List.not_mem_nil

end Registry

/-- A table of core methods, their descriptions and their configuration. What is registered has a
proper name and can be called. -/
@[ext] structure Registry where
  methods : Table Scalar Value := {}
  /-- For each name anything that counts as true, or the description that the method carries
  itself. -/
  descriptions : Table Scalar Value := {}
  config : CoreConfig := default
  sound : ∀ entry ∈ methods.entries,
    Registry.isMethodKey entry.1 = true ∧ entry.2.isCallable = true := by
      exact Registry.sound_empty

/-- What is told about a registered method. -/
structure MethodInfo where
  name : String
  description : Option String
  isAsync : Bool

namespace Registry

instance : Inhabited Registry := ⟨{}⟩

/-- The names of the registered methods, in order. -/
def names (r : Registry) : List Scalar := r.methods.names

/-- The method of a name. -/
def get? (r : Registry) (name : Scalar) : Option Value := r.methods.get? name

/-- Whether a name is registered. -/
def contains (r : Registry) (name : Scalar) : Bool := r.methods.contains name

/-! ## Registering -/

/-- A name as an error reports it: only if it is a text. -/
def reportedName (name : Value) : Value :=
  if name.text?.isSome then name else .null

/-- The error of a value that cannot name a core method, with its display form. -/
def invalidName (name : Value) (shown : String) : ScriptError where
  cause := .registration (reportedName name)
  message := .text ("Invalid core method name: " ++ shown)

/-- What is raised for a value that cannot name a core method. The error shows the value, if it can
be written. -/
def refuseName (methodsOf : Nat → List Scalar) (name : Value) : Raised :=
  match name.display methodsOf with
  | .ok shown => .script (invalidName name shown)
  | .error e => .foreign e

/-- The key of a value that can name a core method. -/
def validateName (methodsOf : Nat → List Scalar) (name : Value) : Except Raised MethodName :=
  match name with
  | .scalar key =>
    if h : isMethodKey key = true then .ok ⟨key, h⟩ else .error (refuseName methodsOf name)
  | _ => .error (refuseName methodsOf name)

/-- The error of registering something that cannot be called. -/
def notCallable (name : Scalar) (method : Value) : ScriptError where
  cause := .registration (.scalar name)
  message := .text
    ("Core method '" ++ name.plain ++ "' must be callable, got " ++ method.kindName)

/-- The description of the method that lists the names of an object. -/
def namesDescription : String := "Names of the methods scripts may call."

/-- The description that a method carries itself, without the margin of its surroundings. -/
def ownDescription : Value → Value
  | .method m =>
    match m.description with
    | some text => .text (Text.cleanDescription text)
    | none => .null
  | .inherited .methodNames _ _ => .text namesDescription
  | _ => .null

/-- The description under which a method is registered: the given one if it counts as true. -/
def chooseDescription (methodsOf : Nat → List Scalar) (given method : Value) : Value :=
  if given.counts methodsOf then given else ownDescription method

/-- Enters a method and its description; those of that name are replaced in place. -/
def enter (r : Registry) (name : MethodName) (method : Value) (h : method.isCallable = true)
    (description : Value) : Registry where
  methods := r.methods.insert name.val method
  descriptions := r.descriptions.insert name.val description
  config := r.config
  sound := by
    intro entry hentry
    obtain hold | ⟨hmethod, hname | ⟨old, hold, hname, -⟩⟩ := Table.mem_insertEntry hentry
    · exact r.sound entry hold
    · rw [hname, hmethod]
      exact ⟨name.property, h⟩
    · rw [hname, hmethod]
      exact ⟨(r.sound old hold).1, h⟩

/-- **Registering a method** under a name; a method of that name is replaced in place. -/
def add (r : Registry) (methodsOf : Nat → List Scalar) (name method description : Value) :
    Except Raised Registry :=
  match validateName methodsOf name with
  | .error e => .error e
  | .ok key =>
    if h : method.isCallable = true then
      .ok (r.enter key method h (chooseDescription methodsOf description method))
    else .error (.script (notCallable key.val method))

/-- Removes a method that is registered, and its description. -/
def remove (r : Registry) (name : Scalar) : Registry :=
  if r.contains name then
    { methods := r.methods.erase name
      descriptions := r.descriptions.erase name
      config := r.config
      sound := fun entry hentry => r.sound entry (List.mem_filter.mp hentry).1 }
  else r

/-! ## Asking -/

/-- The error of a method that is not registered, with the name as part of a sentence. -/
def notFound (r : Registry) (name : Value) (shown : String) : ScriptError where
  cause := .unknownCoreMethod name (.list (r.names.map .scalar))
  message := .text ("Core method not found: " ++ shown)

/-- What is raised for a name that is not registered. The error shows the name, if it can be
written. -/
def refuse (r : Registry) (methodsOf : Nat → List Scalar) (name : Value) : Raised :=
  match name.plain methodsOf with
  | .ok shown => .script (r.notFound name shown)
  | .error e => .foreign e

/-- Whether a value is a method that answers later. -/
def isAsync : Value → Bool
  | .method m => m.isAsync
  | _ => false

/-- The description of a name. -/
def description (r : Registry) (name : Scalar) : Value := (r.descriptions.get? name).getD .null

/-- What is told about a method of a name and a description. The latter has to be a text, if there
is one. -/
def infoOf (name : String) (method description : Value) : Except (List FieldIssue) MethodInfo :=
  match description with
  | .null => .ok ⟨name, none, isAsync method⟩
  | description =>
    match description.text? with
    | some text => .ok ⟨name, some text, isAsync method⟩
    | none => .error [⟨"description", .textKind⟩]

/-- A registry for display. -/
def display (r : Registry) : Except ForeignError String := Value.displayRegistry r.names

/-- Changes fields of the configuration; a change that is not valid is no change. -/
def updateConfig (r : Registry) (changes : List (String × Value)) :
    Except (List FieldIssue) Registry :=
  match r.config.update changes with
  | .ok config => .ok { r with config := config }
  | .error issues => .error issues

end Registry

end CallScript
