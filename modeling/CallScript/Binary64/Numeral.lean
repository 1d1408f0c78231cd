import CallScript.Binary64.Decimal
import CallScript.Text.Blank
import CallScript.Text.Digit
import CallScript.Text.Quoted

/-!
# Reading numbers

Three readers share one grammar of numerals. A *plain* numeral is a sign, digits with an optional
decimal point, and an optional exponent, or one of the words for infinity and for the value that
is not a number. A *lenient* numeral may be padded with blanks, use the digits of any script and
hold single underscores between digits. A *literal* is what a script may write: digits and an
optional fraction, and whatever follows them is ignored.
-/

namespace CallScript.Binary64

/-- One of the ten digits of the basic alphabet. -/
def isBasicDigit (c : Char) : Bool := '0' ≤ c && c ≤ '9'

/-- The natural that a list of digits, of any script, is written for. -/
def digitsValue (digits : List Char) : Nat :=
  digits.foldl (fun n c => 10 * n + (Text.digitValue? c).getD 0) 0

/-- The decimal written as whole digits and digits after the point. -/
def ofParts (whole fraction : List Char) (exponent : Int) : Decimal :=
  ⟨digitsValue (whole ++ fraction), exponent - fraction.length⟩

/-- A sign, if the text starts with one, and what follows it. -/
def takeSign : List Char → Bool × List Char
  | '-' :: cs => (true, cs)
  | '+' :: cs => (false, cs)
  | cs => (false, cs)

/-- The exponent that ends a numeral: nothing, or a mark and a signed integer. -/
def exponent? : List Char → Option Int
  | [] => some 0
  | mark :: cs =>
    let (negative, digits) := takeSign cs
    if (mark = 'e' || mark = 'E') && !digits.isEmpty && digits.all isBasicDigit then
      some (if negative then -(digitsValue digits : Int) else digitsValue digits)
    else none

/-- A numeral without a sign. -/
def unsigned? (cs : List Char) : Option Decimal :=
  let whole := cs.takeWhile isBasicDigit
  let rest := cs.dropWhile isBasicDigit
  let tail := match rest with
    | '.' :: tail => tail
    | _ => []
  let fraction := tail.takeWhile isBasicDigit
  let rest := if rest.head? = some '.' then tail.dropWhile isBasicDigit else rest
  if whole.isEmpty && fraction.isEmpty then none
  else (exponent? rest).map (ofParts whole fraction)

/-- A plain numeral. -/
def plain? (cs : List Char) : Option Binary64 :=
  let (negative, body) := takeSign cs
  let word := String.ofList (body.map Char.toLower)
  if word = "inf" || word = "infinity" then some (.infinite negative)
  else if word = "nan" then some .nan
  else (unsigned? body).map (·.toBinary64 negative)

/-- Removes underscores, each of which must stand between two digits. -/
def dropUnderscores? (afterDigit : Bool) : List Char → Option (List Char)
  | [] => some []
  | ['_'] => none
  | '_' :: c :: cs =>
    if afterDigit && isBasicDigit c then (dropUnderscores? true cs).map (c :: ·) else none
  | c :: cs => (dropUnderscores? (isBasicDigit c) cs).map (c :: ·)

/-- A character of a lenient numeral in the basic alphabet: digits of any script and blanks beyond
that alphabet have a counterpart in it. -/
def basicChar (c : Char) : Char :=
  match Text.digitValue? c with
  | some d => Char.ofNat ('0'.toNat + d)
  | none => if 0x7f < c.toNat && Text.isBlank c then ' ' else c

/-- The blanks of the basic alphabet that may pad a lenient numeral. -/
def isPadding (c : Char) : Bool :=
  c = ' ' || (0x9 ≤ c.toNat && c.toNat ≤ 0xd)

/-- A lenient numeral. -/
def lenient? (s : String) : Option Binary64 :=
  (dropUnderscores? false (Text.trimBy isPadding (s.toList.map basicChar))).bind plain?

/-- The digits that a literal starts with. -/
def literalWhole (cs : List Char) : List Char := cs.takeWhile Text.isDecimalDigit

/-- The digits after the point of a literal. -/
def literalFraction (cs : List Char) : List Char :=
  match cs.dropWhile Text.isDecimalDigit with
  | '.' :: tail => tail.takeWhile Text.isDecimalDigit
  | _ => []

/-- The number of the literal that a text starts with; what follows it is ignored. -/
def literalValue (cs : List Char) : Binary64 :=
  (ofParts (literalWhole cs) (literalFraction cs) 0).toBinary64 false

/-- The number of the literal that a text starts with, if it starts with a digit. -/
def literal? (cs : List Char) : Option Binary64 :=
  if (literalWhole cs).isEmpty then none else some (literalValue cs)

/-- A text that starts with no literal. -/
structure NotNumeric where
  text : String

/-- The message about a text that starts with no literal. -/
def NotNumeric.message (e : NotNumeric) : String :=
  "Not a numeric literal: " ++ Text.display e.text

/-- Reads the literal that a text starts with. -/
def readLiteral (text : String) : Except NotNumeric Binary64 :=
  match literal? text.toList with
  | some x => .ok x
  | none => .error ⟨text⟩

end CallScript.Binary64
