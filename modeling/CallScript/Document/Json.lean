import CallScript.Document.Fault

/-!
# Reading JSON

A document is one value with blanks around it. Beyond the standard, the three words for infinity,
its negative and the value that is not a number are read as numbers. A number without a fraction
and an exponent is an integer. Of two entries with one key the later gives the value
and the earlier the place.

The readers answer with a value and the rest of the text, or with what is wrong. Nesting is bounded
by a count that starts above twice the length of the text. Two steps never go by without a character
being read, so the count does not run out before the text.
-/

namespace CallScript.Json

/-- The blanks of the format. -/
def isBlank (c : Char) : Bool :=
  c = ' ' || c = '\t' || c = '\n' || c = '\r'

/-- The value of a digit in base sixteen. -/
def hexDigit? (c : Char) : Option Nat :=
  if '0' ≤ c && c ≤ '9' then some (c.toNat - '0'.toNat)
  else if 'a' ≤ c && c ≤ 'f' then some (c.toNat - 'a'.toNat + 10)
  else if 'A' ≤ c && c ≤ 'F' then some (c.toNat - 'A'.toNat + 10)
  else none

/-- The natural that digits in base sixteen are written for. -/
def hexValue? (digits : List Char) : Option Nat :=
  digits.foldl (fun n c => n.bind fun n => (hexDigit? c).map (16 * n + ·)) (some 0)

/-- The character of an escape of one letter. -/
def simpleEscape? : Char → Option Char
  | '"' => some '"'
  | '\\' => some '\\'
  | '/' => some '/'
  | 'b' => some (Char.ofNat 8)
  | 'f' => some (Char.ofNat 12)
  | 'n' => some '\n'
  | 'r' => some '\r'
  | 't' => some '\t'
  | _ => none

/-- A code unit that opens a pair. -/
def isHighSurrogate (n : Nat) : Bool := 0xd800 ≤ n && n < 0xdc00

/-- A code unit that closes a pair. -/
def isLowSurrogate (n : Nat) : Bool := 0xdc00 ≤ n && n < 0xe000

/-- The character of a code unit; a lone half of a pair has none of its own. -/
def charOfUnit (n : Nat) : Char :=
  if isHighSurrogate n || isLowSurrogate n then Char.ofNat 0xfffd else Char.ofNat n

/-- The character of a pair of code units. -/
def charOfPair (high low : Nat) : Char :=
  Char.ofNat (0x10000 + (high - 0xd800) * 0x400 + (low - 0xdc00))

/-- The inside of a text, up to and including the closing quote. -/
def textBody? : List Char → Option (List Char × List Char)
  | [] => none
  | '"' :: rest => some ([], rest)
  | '\\' :: 'u' :: a :: b :: c :: d :: '\\' :: 'u' :: e :: f :: g :: h :: rest =>
    match hexValue? [a, b, c, d], hexValue? [e, f, g, h] with
    | some high, some low =>
      if isHighSurrogate high && isLowSurrogate low then
        (textBody? rest).map fun r => (charOfPair high low :: r.1, r.2)
      else
        (textBody? ('\\' :: 'u' :: e :: f :: g :: h :: rest)).map fun r =>
          (charOfUnit high :: r.1, r.2)
    | _, _ => none
  | '\\' :: 'u' :: a :: b :: c :: d :: rest =>
    match hexValue? [a, b, c, d] with
    | some n => (textBody? rest).map fun r => (charOfUnit n :: r.1, r.2)
    | none => none
  | '\\' :: c :: rest =>
    match simpleEscape? c with
    | some e => (textBody? rest).map fun r => (e :: r.1, r.2)
    | none => none
  | c :: rest =>
    if c.toNat < 0x20 || c = '\\' then none
    else (textBody? rest).map fun r => (c :: r.1, r.2)

/-- The digits of a whole number: a zero alone, or digits that start with another. -/
def takeWhole (cs : List Char) : List Char :=
  match cs with
  | '0' :: _ => ['0']
  | _ => cs.takeWhile Binary64.isBasicDigit

/-- The point and the digits of a fraction, if there is a digit after the point. -/
def takeFraction : List Char → List Char
  | '.' :: rest =>
    let digits := rest.takeWhile Binary64.isBasicDigit
    if digits.isEmpty then [] else '.' :: digits
  | _ => []

/-- The mark, the sign and the digits of an exponent, if there is a digit. -/
def takeExponent : List Char → List Char
  | mark :: rest =>
    let sign := match rest with
      | '+' :: _ => ['+']
      | '-' :: _ => ['-']
      | _ => []
    let digits := (rest.drop sign.length).takeWhile Binary64.isBasicDigit
    if (mark = 'e' || mark = 'E') && !digits.isEmpty then mark :: (sign ++ digits) else []
  | [] => []

/-- A number. -/
def number (cs : List Char) : Reading Scalar :=
  let (negative, body) := match cs with
    | '-' :: rest => (true, rest)
    | _ => (false, cs)
  let whole := takeWhole body
  let rest := body.drop whole.length
  let fraction := takeFraction rest
  let rest := rest.drop fraction.length
  let exponent := takeExponent rest
  let rest := rest.drop exponent.length
  if whole.isEmpty then .error .malformed
  else if fraction.isEmpty && exponent.isEmpty then .integer negative whole rest
  else
    .ofOption ((Binary64.unsigned? (whole ++ fraction ++ exponent)).map fun d =>
      (.float (d.toBinary64 negative), rest))

/-- The words that stand for values. -/
def words : List (String × Scalar) :=
  [("null", .null), ("true", .bool true), ("false", .bool false), ("NaN", .float .nan),
    ("Infinity", .float (.infinite false)), ("-Infinity", .float (.infinite true))]

/-- A word at the start of a text. -/
def word? (cs : List Char) : Option (Scalar × List Char) :=
  (words.find? fun w => w.1.toList.isPrefixOf cs).map fun w => (w.2, cs.drop w.1.length)

/-- A text, after its opening quote. -/
def text (cs : List Char) : Reading String :=
  .ofOption ((textBody? cs).map fun r => (String.ofList r.1, r.2))

/-- A value without parts. -/
def scalar (cs : List Char) : Reading Scalar :=
  match cs with
  | '"' :: rest => (text rest).into .text
  | _ =>
    match word? cs with
    | some r => .ok r
    | none => number cs

mutual

/-- A value, with no blanks before it. -/
def value : Nat → List Char → Reading Value
  | 0, _ => .error .malformed
  | count + 1, cs =>
    match cs with
    | '[' :: rest =>
      match rest.dropWhile isBlank with
      | ']' :: rest => .ok (.list [], rest)
      | rest => (items count rest).into .list
    | '\x7b' :: rest =>
      match rest.dropWhile isBlank with
      | '\x7d' :: rest => .ok (.dict [], rest)
      | rest => (entries count [] rest).into .dict
    | _ => (scalar cs).into .scalar

/-- The items of a list, up to and including the closing bracket. -/
def items : Nat → List Char → Reading (List Value)
  | 0, _ => .error .malformed
  | count + 1, cs =>
    match value count cs with
    | .error fault => .error fault
    | .ok (v, rest) =>
      match rest.dropWhile isBlank with
      | ']' :: rest => .ok ([v], rest)
      | ',' :: rest => (items count (rest.dropWhile isBlank)).into (v :: ·)
      | _ => .error .malformed

/-- The entries of a dictionary after those already read, up to and including the closing
brace. -/
def entries : Nat → List (Scalar × Value) → List Char → Reading (List (Scalar × Value))
  | 0, _, _ => .error .malformed
  | count + 1, before, '"' :: cs =>
    match text cs with
    | .error fault => .error fault
    | .ok (key, rest) =>
      match rest.dropWhile isBlank with
      | ':' :: rest =>
        match value count (rest.dropWhile isBlank) with
        | .error fault => .error fault
        | .ok (v, rest) =>
          let now := Table.insertEntry (.text key) v before
          match rest.dropWhile isBlank with
          | '\x7d' :: rest => .ok (now, rest)
          | ',' :: rest => entries count now (rest.dropWhile isBlank)
          | _ => .error .malformed
      | _ => .error .malformed
  | _, _, _ => .error .malformed

end

/-- Reads a document. -/
def read (document : String) : Except DocumentFault Value :=
  let cs := document.toList.dropWhile isBlank
  match value (2 * cs.length + 2) cs with
  | .ok (v, rest) => if (rest.dropWhile isBlank).isEmpty then .ok v else .error .malformed
  | .error fault => .error fault

end CallScript.Json
