import CallScript.ForeignError.Basic

/-!
# Values as text

A value is *data* when it is built from scalars, lists and dictionaries alone; then it has a data
form. Most values have a display form. A trace shows the data form of an argument if there is one,
and otherwise the display form of the whole argument: the two are never mixed.

Not everything can be written. An integer of too many digits has no form at all, an object of the
embedding program may refuse to be displayed, and an object that lists its methods is displayed by
their names, which then have to be texts. Asking for a form that is not there raises an error, and
so does asking for a form of anything that holds such a part.
-/

namespace CallScript.Value

/-! ## Scalars -/

/-- Integers of more decimal digits than this are neither read from decimal digits nor written. -/
def digitLimit : Nat := 4300

/-- The complaint about an integer that is too long. How many digits it has is only known when it is
read. -/
def digitLimitMessage (count : Option Nat) : String :=
  let shown := match count with
    | some n => ": value has " ++ toString n ++ " digits"
    | none => ""
  "Exceeds the limit (" ++ toString digitLimit ++ " digits) for integer string conversion" ++ shown
    ++ "; use sys.set_int_max_str_digits() to increase the limit"

/-- Whether a scalar is an integer too long to write. -/
def isLong : Scalar → Bool
  | .int n => Nat.pow 10 digitLimit ≤ n.natAbs
  | _ => false

/-- The error of writing an integer that is too long. -/
def tooLong : ForeignError := .wrongValue (digitLimitMessage none)

/-- A scalar written in one of its forms. -/
def written (form : Scalar → String) (s : Scalar) : Except ForeignError String :=
  if isLong s then .error tooLong else .ok (form s)

theorem isLong_of_text {s : Scalar} {content : String} (h : s.text? = some content) :
    isLong s = false := by
  cases s <;> cases h <;> rfl

theorem written_of_short {s : Scalar} (h : isLong s = false) (form : Scalar → String) :
    written form s = .ok (form s) := by
  rw [written, h]
  rfl

/-! ## Rows -/

/-- Texts with separators between them, in brackets. -/
def bracketed (left : String) (items : List String) (right : String) : String :=
  left ++ Text.joinWith ", " items ++ right

/-- The texts of items that all are texts. -/
def itemTexts : Nat → List Value → Except ForeignError (List String)
  | _, [] => .ok []
  | position, item :: rest =>
    match item.text? with
    | some shown => (itemTexts (position + 1) rest).map (shown :: ·)
    | none =>
      .error (.wrongKind ("sequence item " ++ toString position ++ ": expected str instance, "
        ++ item.kindName ++ " found"))

/-- A list of keys for display. -/
def displayKeys (keys : List Scalar) : Except ForeignError String :=
  (keys.mapM (written Scalar.display)).map (bracketed "[" · "]")

/-- The display form of a registry, by the names of its methods. -/
def displayRegistry (names : List Scalar) : Except ForeignError String :=
  (displayKeys names).map fun keys => "CoreRegistry(methods=" ++ keys ++ ")"

/-- The display form of an object by the names that it lists. -/
def displayObject (names : List Scalar) : Except ForeignError String :=
  (itemTexts 0 (names.map scalar)).map fun texts => "<host " ++ Text.joinWith "," texts ++ ">"

/-- The display form of an object without methods. -/
def displayHandle : Handle → Except ForeignError String
  | .shown label => .ok label
  | .moment m => .ok m.display
  | .mute kind message aborts => .error ⟨kind, [text message], aborts⟩

/-! ## Forms -/

mutual

/-- The display form of a value, given the names of the methods of each registry. -/
def display (methodsOf : Nat → List Scalar) : Value → Except ForeignError String
  | scalar s => written Scalar.display s
  | undefined => .ok "UNDEFINED"
  | list items => (displayAll methodsOf items).map (bracketed "[" · "]")
  | dict entries => (displayEntries methodsOf entries).map (bracketed "\x7b" · "\x7d")
  | view entries =>
    (displayEntries methodsOf entries).map (bracketed "mappingproxy(\x7b" · "\x7d)")
  | handle h => displayHandle h
  | toolbox entries =>
    (displayKeys (entries.map (·.1))).map fun keys => "MappingHostObject(" ++ keys ++ ")"
  | object names _ => displayObject names
  | registry id => displayRegistry (methodsOf id)
  | method m => .ok ("<fn " ++ m.label ++ ">")
  | inherited which _ _ => .ok ("<method " ++ which.name ++ ">")

/-- The display forms of values. -/
def displayAll (methodsOf : Nat → List Scalar) : List Value → Except ForeignError (List String)
  | [] => .ok []
  | v :: vs => do
    let first ← display methodsOf v
    return first :: (← displayAll methodsOf vs)

/-- The display forms of entries. -/
def displayEntries (methodsOf : Nat → List Scalar) :
    List (Scalar × Value) → Except ForeignError (List String)
  | [] => .ok []
  | (k, v) :: entries => do
    let key ← written Scalar.display k
    let shown ← display methodsOf v
    return (key ++ ": " ++ shown) :: (← displayEntries methodsOf entries)

end

mutual

/-- The data form of a value, or the error of the first part that has none. -/
def data : Value → Except ForeignError String
  | scalar s => written Scalar.data s
  | list items => (dataAll items).map (bracketed "[" · "]")
  | dict entries => (dataEntries entries).map (bracketed "\x7b" · "\x7d")
  | undefined => .error (.notData undefined.kindName)
  | view entries => .error (.notData (view entries).kindName)
  | handle h => .error (.notData (handle h).kindName)
  | toolbox entries => .error (.notData (toolbox entries).kindName)
  | object names attributes => .error (.notData (object names attributes).kindName)
  | registry id => .error (.notData (registry id).kindName)
  | method m => .error (.notData (method m).kindName)
  | inherited which names attributes =>
    .error (.notData (inherited which names attributes).kindName)

/-- The data forms of values. -/
def dataAll : List Value → Except ForeignError (List String)
  | [] => .ok []
  | v :: vs => do
    let first ← data v
    return first :: (← dataAll vs)

/-- The data forms of entries. -/
def dataEntries : List (Scalar × Value) → Except ForeignError (List String)
  | [] => .ok []
  | (k, v) :: entries => do
    let key ← written Scalar.dataKey k
    let shown ← data v
    return (key ++ ": " ++ shown) :: (← dataEntries entries)

end

/-- A value as a trace shows it. -/
def render (methodsOf : Nat → List Scalar) (v : Value) : Except ForeignError String :=
  match data v with
  | .ok shown => .ok shown
  | .error _ => display methodsOf v

/-- A value as part of a sentence: a text stands for itself. -/
def plain (methodsOf : Nat → List Scalar) (v : Value) : Except ForeignError String :=
  match v with
  | scalar s => written Scalar.plain s
  | handle (.moment m) => .ok m.plain
  | v => display methodsOf v

/-- No registry has methods. Documents and source texts refer to no registry, so this is enough to
display what comes from them. -/
def noRegistries : Nat → List Scalar := fun _ => []

end CallScript.Value
