import CallScript.Binary64.Numeral
import CallScript.Value.Render

/-!
# What can be wrong with a document

A document does not fit its format, or it holds an integer of more decimal digits than may be read.
The latter is noticed when the integer is reached, so it hides what may be wrong further on.

A *reading* is what a reader of a part of a document answers: what it read and the rest of the
text, or what is wrong.
-/

namespace CallScript

/-- What is wrong with a document. -/
inductive DocumentFault where
  | malformed
  | tooManyDigits (count : Nat)
deriving DecidableEq

/-- What was read and the rest of the text, or what is wrong. -/
abbrev Reading (α : Type) := Except DocumentFault (α × List Char)

namespace Reading

/-- The reading of a part that is there or else missing. -/
def ofOption {α : Type} : Option (α × List Char) → Reading α
  | some r => .ok r
  | none => .error .malformed

/-- Makes something of what was read. -/
def into {α β : Type} (f : α → β) (r : Reading α) : Reading β :=
  r.map fun (a, rest) => (f a, rest)

/-- The integer of decimal digits. -/
def integer (negative : Bool) (digits rest : List Char) : Reading Scalar :=
  if Value.digitLimit < digits.length then .error (.tooManyDigits digits.length)
  else
    let n : Int := Binary64.digitsValue digits
    .ok (.int (if negative then -n else n), rest)

end Reading

end CallScript
