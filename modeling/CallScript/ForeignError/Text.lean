import CallScript.Value.Render

/-!
# The text of errors of the embedding program

The text of an error is made from its arguments: none give the empty text, one gives itself, and
several give their display forms in round brackets. Failed look-ups of a key and failures of the
system have rules of their own. An argument that cannot be written leaves the error without a text:
asking for it raises another error.
-/

namespace CallScript.ForeignError

/-- What a failure of the system was about: the third argument, and the fifth. -/
def subjects (methodsOf : Nat → List Scalar) : List Value → Except ForeignError String
  | [] => .ok ""
  | first :: more =>
    if first.isNull then .ok ""
    else do
      let shown ← first.display methodsOf
      match more with
      | [_, other] =>
        if other.isNull then return ": " ++ shown
        else return ": " ++ shown ++ " -> " ++ (← other.display methodsOf)
      | _ => return ": " ++ shown

/-- The text of the arguments of an error that has no rule of its own. -/
def argumentsText (methodsOf : Nat → List Scalar) : List Value → Except ForeignError String
  | [] => .ok ""
  | [argument] => argument.plain methodsOf
  | many => (Value.displayAll methodsOf many).map (Value.bracketed "(" · ")")

/-- The text of the arguments of a failure of the system: a number and a description come first. -/
def systemText (methodsOf : Nat → List Scalar) : List Value → Except ForeignError String
  | number :: what :: more =>
    if more.length ≤ 3 then do
      let number ← number.plain methodsOf
      let what ← what.plain methodsOf
      return "[Errno " ++ number ++ "] " ++ what ++ (← subjects methodsOf more)
    else argumentsText methodsOf (number :: what :: more)
  | arguments => argumentsText methodsOf arguments

/-- The text of an error, given the names of the methods of each registry. -/
def text (methodsOf : Nat → List Scalar) (e : ForeignError) : Except ForeignError String :=
  if systemKinds.contains e.kind then systemText methodsOf e.arguments
  else
    match e.arguments with
    | [argument] =>
      if e.kind = keyLookup then argument.display methodsOf else argument.plain methodsOf
    | arguments => argumentsText methodsOf arguments

/-- The kind and the text of an error, or the kind twice if the text is empty. -/
def brief (methodsOf : Nat → List Scalar) (e : ForeignError) : Except ForeignError String :=
  (e.text methodsOf).map fun text => e.kind ++ ": " ++ (if text = "" then e.kind else text)

end CallScript.ForeignError
