import CallScript.ForeignError.Text

/-!
# Values as sequences, keys and mappings

A value may be asked for its items, for its length, to be a key or to be a mapping. Values that
cannot answer raise an error of the embedding program that says so.
-/

namespace CallScript.Value

/-- Whether a value counts as true, given the names of the methods of each registry. -/
def counts (methodsOf : Nat → List Scalar) (v : Value) : Bool :=
  v.truthy fun id => (methodsOf id).length

/-! ## Sequences -/

/-- The items of a value in a row. -/
def joined (v : Value) : Except ForeignError String :=
  match v.items? with
  | some items => (itemTexts 0 items).map (Text.joinWith ", ")
  | none => .error (.wrongKind "can only join an iterable")

/-- How many items a value has. -/
def length (methodsOf : Nat → List Scalar) (v : Value) : Except ForeignError Nat :=
  match v with
  | .registry id => .ok (methodsOf id).length
  | _ =>
    match v.items? with
    | some items => .ok items.length
    | none => .error (.noLength v.kindName)

/-- The item of a mapping under the key zero. -/
def underZero (entries : List (Scalar × Value)) : Except ForeignError Value :=
  match Table.valueIn? (.int 0) entries with
  | some item => .ok item
  | none => .error ⟨ForeignError.keyLookup, [.int 0], false⟩

/-- The item that a value has under zero: the first of a sequence, or that of a key. -/
def zeroth : Value → Except ForeignError Value
  | .dict entries => underZero entries
  | .view entries => underZero entries
  | v =>
    match v.items? with
    | some (item :: _) => .ok item
    | some [] => .error ⟨"IndexError", [.text "list index out of range"], false⟩
    | none => .error (.notSubscriptable v.kindName)

/-- The first items of a sequence, as many as asked for. -/
def firstItems (count : Nat) : Value → Except ForeignError Value
  | .dict _ => .error (.notKey "slice")
  | .view _ => .error (.notKey "slice")
  | v =>
    match v.items? with
    | some items => .ok (.list (items.take count))
    | none => .error (.notSubscriptable v.kindName)

/-! ## Keys and mappings -/

/-- The key that a value is. Lists and mappings are none and must not be used as one; an object may
be, but nothing is ever bound to it. -/
def key (v : Value) : Except ForeignError (Option Scalar) :=
  match v with
  | .scalar s => .ok (some s)
  | .list _ => .error (.notKey v.kindName)
  | .dict _ => .error (.notKey v.kindName)
  | .view _ => .error (.notKey v.kindName)
  | _ => .ok none

/-- The entries that an item of a sequence of pairs makes. -/
def pairEntries (position : Nat) (item : Value) : Except ForeignError (List (Scalar × Value)) :=
  match item.items? with
  | some [first, second] => first.key.map fun key => (key.map (·, second)).toList
  | some parts =>
    .error (.wrongValue ("dictionary update sequence element #" ++ toString position
      ++ " has length " ++ toString parts.length ++ "; 2 is required"))
  | none =>
    .error (.wrongKind ("cannot convert dictionary update sequence element #" ++ toString position
      ++ " to a sequence"))

/-- The entries of a sequence of pairs. -/
def pairsEntries : Nat → List Value → Except ForeignError (List (Scalar × Value))
  | _, [] => .ok []
  | position, item :: rest => do
    let first ← pairEntries position item
    return first ++ (← pairsEntries (position + 1) rest)

/-- The entries of a mapping or of a sequence of pairs. -/
def mapping (v : Value) : Except ForeignError (List (Scalar × Value)) :=
  match v with
  | .dict entries => .ok entries
  | .view entries => .ok entries
  | _ =>
    match v.items? with
    | some items => (pairsEntries 0 items).map dictOf
    | none => .error (.notIterable v.kindName)

end CallScript.Value
