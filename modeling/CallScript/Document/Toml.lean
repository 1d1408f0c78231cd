import CallScript.Document.Json

/-!
# Reading TOML

A document is a sequence of lines: entries `key = value`, headers that open a table, and headers
that open the next table of an array. Reading goes in two steps. The first turns the text into
statements, as far as it fits; the second builds the document from them and enforces the rules of
the format on what may be opened or extended:

* a table is opened by its header at most once, and not at all once dotted keys of an earlier
  section have gone through it;
* dotted keys do not go into a table that a header has opened;
* an inline table or array is complete where it is written, and nothing is added to it later.

What the second step finds wrong with a statement comes before what the first step finds wrong
further on.
-/

namespace CallScript.Toml

/-- The names on the way to an entry. -/
abbrev Path := List String

/-- One line of a document. -/
inductive Statement where
  | entry (path : Path) (value : Value)
  | table (path : Path)
  | nextTable (path : Path)

/-! ## Characters -/

/-- The blanks inside a line. -/
def isBlank (c : Char) : Bool := c = ' ' || c = '\t'

/-- The blanks between the items of an array. -/
def isArrayBlank (c : Char) : Bool := isBlank c || c = '\n'

/-- A character of a key without quotes. -/
def isBareKeyChar (c : Char) : Bool := c.isAlphanum || c = '-' || c = '_'

/-- Control characters other than the tab. -/
def isControl (c : Char) : Bool := (c.toNat < 0x20 && c ≠ '\t') || c.toNat = 0x7f

/-- Control characters other than the tab and the line feed. -/
def isMultilineControl (c : Char) : Bool := isControl c && c ≠ '\n'

/-- Writes every line end as a line feed. -/
def unifyLineEnds : List Char → List Char
  | [] => []
  | '\r' :: '\n' :: cs => '\n' :: unifyLineEnds cs
  | c :: cs => c :: unifyLineEnds cs

/-- Drops a comment, up to the end of the line; it holds no control characters. -/
def skipComment? : List Char → Option (List Char)
  | '#' :: cs =>
    if (cs.takeWhile (· ≠ '\n')).any isControl then none else some (cs.dropWhile (· ≠ '\n'))
  | cs => some cs

/-- Drops blanks, line ends and comments. -/
def skipGap? : Nat → List Char → Option (List Char)
  | 0, _ => none
  | count + 1, cs =>
    match cs.dropWhile isArrayBlank with
    | '#' :: rest =>
      match skipComment? ('#' :: rest) with
      | some rest => skipGap? count rest
      | none => none
    | rest => some rest

/-! ## Texts -/

/-- The character of a code, if it is a character. -/
def charOfCode? (n : Nat) : Option Char :=
  if n < 0xd800 || (0xdfff < n && n < 0x110000) then some (Char.ofNat n) else none

/-- The character of an escape of one letter. -/
def simpleEscape? (c : Char) : Option Char :=
  if c = '/' then none else Json.simpleEscape? c

/-- Drops the line end that an escape hides, with the blanks around it. -/
def skipHiddenEnd? (cs : List Char) : Option (List Char) :=
  match cs.dropWhile isBlank with
  | '\n' :: rest => some (rest.dropWhile isArrayBlank)
  | _ => none

/-- The inside of a text with escapes, up to its closing quotes. -/
def basicBody? (multiline : Bool) : Nat → List Char → Option (List Char × List Char)
  | 0, _ => none
  | count + 1, cs =>
    let push (c : Char) (rest : List Char) : Option (List Char × List Char) :=
      (basicBody? multiline count rest).map fun r => (c :: r.1, r.2)
    match cs with
    | [] => none
    | '"' :: '"' :: '"' :: rest => some ([], if multiline then rest else '"' :: '"' :: rest)
    | '"' :: rest => if multiline then push '"' rest else some ([], rest)
    | '\\' :: c :: rest =>
      if multiline && isArrayBlank c then
        (skipHiddenEnd? (c :: rest)).bind (basicBody? multiline count)
      else if c = 'u' || c = 'U' then
        let width := if c = 'u' then 4 else 8
        let digits := rest.take width
        if digits.length = width then
          ((Json.hexValue? digits).bind charOfCode?).bind fun e => push e (rest.drop width)
        else none
      else (simpleEscape? c).bind fun e => push e rest
    | c :: rest =>
      if c = '\\' || (if multiline then isMultilineControl c else isControl c) then none
      else push c rest

/-- A text on one line without escapes, after its opening quote. -/
def literalText? (cs : List Char) : Option (String × List Char) :=
  let body := cs.takeWhile (· ≠ '\'')
  match cs.dropWhile (· ≠ '\'') with
  | _ :: rest => if body.any isControl then none else some (String.ofList body, rest)
  | [] => none

/-- A text on one line with escapes, after its opening quote. -/
def basicText? (cs : List Char) : Option (String × List Char) :=
  (basicBody? false (cs.length + 1) cs).map fun r => (String.ofList r.1, r.2)

/-- The inside of a text of several lines without escapes, up to its closing quotes. -/
def literalBody? : List Char → Option (List Char × List Char)
  | [] => none
  | '\'' :: '\'' :: '\'' :: rest => some ([], rest)
  | c :: rest =>
    if isMultilineControl c then none
    else (literalBody? rest).map fun r => (c :: r.1, r.2)

/-- Up to two quotes right after the closing ones belong to the text. -/
def extraQuotes (quote : Char) (rest : List Char) : List Char :=
  (rest.take 2).takeWhile (· = quote)

/-- A line feed right after the opening quotes does not belong to the text. -/
def dropFirstEnd : List Char → List Char
  | '\n' :: cs => cs
  | cs => cs

/-- A text of several lines, after its opening quotes. -/
def multilineText? (quote : Char) (cs : List Char) : Option (String × List Char) :=
  let cs := dropFirstEnd cs
  let body := if quote = '"' then basicBody? true (cs.length + 1) cs else literalBody? cs
  body.map fun (body, rest) =>
    let extra := extraQuotes quote rest
    (String.ofList (body ++ extra), rest.drop extra.length)

/-! ## Keys -/

/-- One name of a key. -/
def keyPart? (cs : List Char) : Option (String × List Char) :=
  match cs with
  | '\'' :: rest => literalText? rest
  | '"' :: rest => basicText? rest
  | _ =>
    let name := cs.takeWhile isBareKeyChar
    if name.isEmpty then none else some (String.ofList name, cs.drop name.length)

/-- A key: names with points between them, and the blanks after it. -/
def key? : Nat → List Char → Option (Path × List Char)
  | 0, _ => none
  | count + 1, cs =>
    match keyPart? cs with
    | none => none
    | some (part, rest) =>
      match rest.dropWhile isBlank with
      | '.' :: rest => (key? count (rest.dropWhile isBlank)).map fun r => (part :: r.1, r.2)
      | rest => some ([part], rest)

/-! ## Numbers -/

/-- Digits of a class with single underscores between them, and the rest. -/
def takeDigits (inClass : Char → Bool) : List Char → List Char × List Char
  | [] => ([], [])
  | '_' :: c :: rest =>
    if inClass c then
      let r := takeDigits inClass rest
      (c :: r.1, r.2)
    else ([], '_' :: c :: rest)
  | c :: rest =>
    if inClass c then
      let r := takeDigits inClass rest
      (c :: r.1, r.2)
    else ([], c :: rest)

/-- Digits of a class of which the first is not an underscore. -/
def takeRun (inClass : Char → Bool) (cs : List Char) : List Char × List Char :=
  match cs with
  | c :: _ => if inClass c then takeDigits inClass cs else ([], cs)
  | [] => ([], [])

/-- The base that a letter after a leading zero stands for. -/
def base? : Char → Option Nat
  | 'x' => some 16
  | 'o' => some 8
  | 'b' => some 2
  | _ => none

/-- Whether a character is a digit of a base. -/
def isDigitOf (base : Nat) (c : Char) : Bool :=
  match Json.hexDigit? c with
  | some d => d < base
  | none => false

/-- An integer in another base than ten, after its leading zero. -/
def basedInteger? (cs : List Char) : Option (Scalar × List Char) :=
  match cs with
  | mark :: rest =>
    (base? mark).bind fun base =>
      let (digits, rest) := takeRun (isDigitOf base) rest
      if digits.isEmpty then none
      else
        let n := digits.foldl (fun n c => base * n + (Json.hexDigit? c).getD 0) 0
        some (.int n, rest)
  | [] => none

/-- The digits of a fraction after its point, if there are any. -/
def fraction (cs : List Char) : List Char × List Char :=
  match cs with
  | '.' :: rest =>
    let (digits, after) := takeRun Binary64.isBasicDigit rest
    if digits.isEmpty then ([], cs) else (digits, after)
  | _ => ([], cs)

/-- The sign and digits of an exponent after its mark, if there are any. -/
def exponent (cs : List Char) : Option Int × List Char :=
  match cs with
  | mark :: rest =>
    let (negative, rest) := Binary64.takeSign rest
    let (digits, after) := takeRun Binary64.isBasicDigit rest
    if (mark = 'e' || mark = 'E') && !digits.isEmpty then
      let n : Int := Binary64.digitsValue digits
      (some (if negative then -n else n), after)
    else (none, cs)
  | [] => (none, [])

/-- The digits before the point of a number in base ten: a zero alone, or digits that start with
another. -/
def wholeDigits : List Char → List Char × List Char
  | '0' :: rest => (['0'], rest)
  | cs => takeRun Binary64.isBasicDigit cs

/-- A number in base ten, if its whole part is there. -/
def decimal (negative : Bool) (whole rest : List Char) : Reading Scalar :=
  let (digits, rest) := fraction rest
  let (power, rest) := exponent rest
  if digits.isEmpty && power.isNone then .integer negative whole rest
  else
    let d := Binary64.ofParts whole digits (power.getD 0)
    .ok (.float (d.toBinary64 negative), rest)

/-- Infinity and the value that is not a number, with or without a sign. -/
def special? (cs : List Char) : Option (Scalar × List Char) :=
  let (negative, body) := Binary64.takeSign cs
  match body with
  | 'i' :: 'n' :: 'f' :: rest => some (.float (.infinite negative), rest)
  | 'n' :: 'a' :: 'n' :: rest => some (.float .nan, rest)
  | _ => none

/-- A number. -/
def number (cs : List Char) : Reading Scalar :=
  let based := match cs with
    | '0' :: rest => basedInteger? rest
    | _ => none
  match based with
  | some r => .ok r
  | none =>
    let (negative, body) := Binary64.takeSign cs
    match wholeDigits body with
    | ([], _) => .ofOption (special? cs)
    | (whole, rest) => decimal negative whole rest

/-! ## Days and times -/

/-- A number of two digits that lies between two others. -/
def numberWithin? (least most : Nat) (cs : List Char) : Option (Nat × List Char) :=
  match cs with
  | a :: b :: rest =>
    let n := Binary64.digitsValue [a, b]
    if [a, b].all Binary64.isBasicDigit && least ≤ n && n ≤ most then some (n, rest) else none
  | _ => none

/-- The rest of a text behind a character. -/
def behind? (c : Char) : List Char → Option (List Char)
  | [] => none
  | first :: rest => if first = c then some rest else none

/-- The year, the month and the day at the start of a text. -/
def dayParts? (cs : List Char) : Option ((Nat × Nat × Nat) × List Char) := do
  let year := cs.take 4
  guard (year.length = 4 && year.all Binary64.isBasicDigit)
  let rest ← behind? '-' (cs.drop 4)
  let (month, rest) ← numberWithin? 1 12 rest
  let rest ← behind? '-' rest
  let (day, rest) ← numberWithin? 1 31 rest
  return ((Binary64.digitsValue year, month, day), rest)

/-- The fraction of a second in millionths, if there is one; further digits do not count. -/
def microseconds : List Char → Nat × List Char
  | '.' :: rest =>
    let digits := rest.takeWhile Binary64.isBasicDigit
    if digits.isEmpty then (0, '.' :: rest)
    else
      let counted := digits.take 6
      (Binary64.digitsValue (counted ++ List.replicate (6 - counted.length) '0'),
        rest.drop digits.length)
  | cs => (0, cs)

/-- The time of day at the start of a text. -/
def clock? (cs : List Char) : Option (Clock × List Char) := do
  let (hour, rest) ← numberWithin? 0 23 cs
  let rest ← behind? ':' rest
  let (minute, rest) ← numberWithin? 0 59 rest
  let rest ← behind? ':' rest
  let (second, rest) ← numberWithin? 0 59 rest
  let (fraction, rest) := microseconds rest
  return (⟨.ofNat 24 hour, .ofNat 60 minute, .ofNat 60 second, .ofNat 1000000 fraction⟩, rest)

/-- The offset after a time of day in minutes, if there is one. -/
def offset? : List Char → Option (Int × List Char)
  | [] => none
  | sign :: rest =>
    if sign = 'Z' || sign = 'z' then some (0, rest)
    else if sign = '+' || sign = '-' then do
      let (hours, rest) ← numberWithin? 0 23 rest
      let rest ← behind? ':' rest
      let (minutes, rest) ← numberWithin? 0 59 rest
      let size : Int := 60 * hours + minutes
      return (if sign = '-' then -size else size, rest)
    else none

/-- The time of day and the offset after a day. -/
def timeAfter? : List Char → Option (Clock × Option Int × List Char)
  | [] => none
  | mark :: rest =>
    if mark = 'T' || mark = 't' || mark = ' ' then
      (clock? rest).map fun (time, rest) =>
        match offset? rest with
        | some (offset, rest) => (time, some offset, rest)
        | none => (time, none, rest)
    else none

/-- A day with or without a time of day. -/
def dayMoment (d : Day) (cs : List Char) : Moment × List Char :=
  match timeAfter? cs with
  | some (time, offset, rest) => (.both d time offset, rest)
  | none => (.day d, cs)

/-- A moment, if the text starts with one. A day that the calendar does not have is a fault. -/
def moment? (cs : List Char) : Option (Reading Moment) :=
  match dayParts? cs with
  | some ((year, month, day), rest) =>
    match Day.ofParts? year month day with
    | some d => some (.ok (dayMoment d rest))
    | none => some (.error .malformed)
  | none => (clock? cs).map fun (time, rest) => .ok (.clock time, rest)

/-! ## Values -/

/-- A value without parts. -/
def scalar (cs : List Char) : Reading Scalar :=
  match cs with
  | '"' :: '"' :: '"' :: rest => (Reading.ofOption (multilineText? '"' rest)).into .text
  | '"' :: rest => (Reading.ofOption (basicText? rest)).into .text
  | '\'' :: '\'' :: '\'' :: rest => (Reading.ofOption (multilineText? '\'' rest)).into .text
  | '\'' :: rest => (Reading.ofOption (literalText? rest)).into .text
  | 't' :: 'r' :: 'u' :: 'e' :: rest => .ok (.bool true, rest)
  | 'f' :: 'a' :: 'l' :: 's' :: 'e' :: rest => .ok (.bool false, rest)
  | _ => number cs

/-- A moment, or a value without parts. -/
def leaf (cs : List Char) : Reading Value :=
  match moment? cs with
  | some reading => reading.into (.handle <| .moment ·)
  | none => (scalar cs).into .scalar

/-- Whether a value is complete where it is written. -/
def isComposite : Value → Bool
  | .list _ => true
  | .dict _ => true
  | _ => false

/-- Changes the table at the end of a path, opening tables on the way. With `throughArrays` a path
goes through an array of tables into its last table. -/
def updateAt? (throughArrays : Bool)
    (change : List (Scalar × Value) → Option (List (Scalar × Value))) :
    Path → List (Scalar × Value) → Option (List (Scalar × Value))
  | [], entries => change entries
  | name :: path, entries =>
    let inside : Option Value := match Value.named? name entries with
      | none => (updateAt? throughArrays change path []).map Value.dict
      | some (.dict inner) => (updateAt? throughArrays change path inner).map Value.dict
      | some (.list items) =>
        match throughArrays, items.getLast? with
        | true, some (.dict inner) =>
          (updateAt? throughArrays change path inner).map fun inner =>
            Value.list (items.dropLast ++ [.dict inner])
        | _, _ => none
      | some _ => none
    inside.map fun v => Table.insertEntry (.text name) v entries

/-- Adds an entry to a table that has none of that name. -/
def bindNew? (name : String) (v : Value) (entries : List (Scalar × Value)) :
    Option (List (Scalar × Value)) :=
  match Value.named? name entries with
  | none => some (Table.insertEntry (.text name) v entries)
  | some _ => none

/-- Adds an entry at a path. -/
def addAt? (throughArrays : Bool) (path : Path) (v : Value) (entries : List (Scalar × Value)) :
    Option (List (Scalar × Value)) :=
  match path.getLast? with
  | some name => updateAt? throughArrays (bindNew? name v) path.dropLast entries
  | none => none

/-- Whether a path is or lies below one of the paths. -/
def isWithin (paths : List Path) (path : Path) : Bool :=
  paths.any (·.isPrefixOf path)

/-- An inline table that is being read: its entries, and the paths of those that are complete. -/
structure Inline where
  entries : List (Scalar × Value) := []
  complete : List Path := []

/-- Adds an entry to an inline table. -/
def Inline.add? (t : Inline) (path : Path) (v : Value) : Option Inline :=
  if isWithin t.complete path then none
  else
    (addAt? false path v t.entries).map fun entries =>
      ⟨entries, if isComposite v then path :: t.complete else t.complete⟩

mutual

/-- A value, with no blanks before it. -/
def value : Nat → List Char → Reading Value
  | 0, _ => .error .malformed
  | count + 1, cs =>
    match cs with
    | '[' :: rest => (items count rest).into .list
    | '\x7b' :: rest =>
      match rest.dropWhile isBlank with
      | '\x7d' :: rest => .ok (.dict [], rest)
      | rest => (inlineEntries count {} rest).into .dict
    | _ => leaf cs

/-- The items of an array, up to and including the closing bracket. A comma may follow the last. -/
def items : Nat → List Char → Reading (List Value)
  | 0, _ => .error .malformed
  | count + 1, cs =>
    match skipGap? (cs.length + 1) cs with
    | none => .error .malformed
    | some (']' :: rest) => .ok ([], rest)
    | some rest =>
      match value count rest with
      | .error fault => .error fault
      | .ok (v, rest) =>
        match skipGap? (rest.length + 1) rest with
        | some (']' :: rest) => .ok ([v], rest)
        | some (',' :: rest) => (items count rest).into (v :: ·)
        | _ => .error .malformed

/-- The entries of an inline table after those already read, up to and including the closing
brace. -/
def inlineEntries : Nat → Inline → List Char → Reading (List (Scalar × Value))
  | 0, _, _ => .error .malformed
  | count + 1, table, cs =>
    match key? (cs.length + 1) cs with
    | some (path, '=' :: rest) =>
      match value count (rest.dropWhile isBlank) with
      | .error fault => .error fault
      | .ok (v, rest) =>
        match table.add? path v, rest.dropWhile isBlank with
        | some table, '\x7d' :: rest => .ok (table.entries, rest)
        | some table, ',' :: rest => inlineEntries count table (rest.dropWhile isBlank)
        | _, _ => .error .malformed
    | _ => .error .malformed

end

/-! ## Statements -/

/-- The end of a line: blanks, a comment, and a line feed or the end of the text. -/
def lineEnd? (cs : List Char) : Option (List Char) :=
  match skipComment? (cs.dropWhile isBlank) with
  | some [] => some []
  | some ('\n' :: rest) => some rest
  | _ => none

/-- The statement at the start of a line. -/
def statement (cs : List Char) : Reading Statement :=
  match cs with
  | '[' :: '[' :: rest =>
    match key? (rest.length + 1) (rest.dropWhile isBlank) with
    | some (path, ']' :: ']' :: rest) => .ok (.nextTable path, rest)
    | _ => .error .malformed
  | '[' :: rest =>
    match key? (rest.length + 1) (rest.dropWhile isBlank) with
    | some (path, ']' :: rest) => .ok (.table path, rest)
    | _ => .error .malformed
  | _ =>
    match key? (cs.length + 1) cs with
    | some (path, '=' :: rest) =>
      let body := rest.dropWhile isBlank
      (value (2 * body.length + 2) body).into (.entry path)
    | _ => .error .malformed

/-- The statements of a text up to the first fault, and that fault if there is one. -/
def statements : Nat → List Char → List Statement × Option DocumentFault
  | 0, _ => ([], some .malformed)
  | count + 1, cs =>
    let onward (next : Option (List Char)) : List Statement × Option DocumentFault :=
      match next with
      | some rest => statements count rest
      | none => ([], some .malformed)
    match cs.dropWhile isBlank with
    | [] => ([], none)
    | '\n' :: rest => statements count rest
    | '#' :: rest => onward (lineEnd? ('#' :: rest))
    | cs =>
      match statement cs with
      | .error fault => ([], some fault)
      | .ok (s, rest) =>
        let (more, fault) := onward (lineEnd? rest)
        (s :: more, fault)

/-! ## Building the document -/

/-- A document that is being built. -/
structure Builder where
  entries : List (Scalar × Value) := []
  /-- The table that entries go to. -/
  header : Path := []
  /-- Tables that can no longer be opened. -/
  opened : List Path := []
  /-- Tables that dotted keys of this section went through. -/
  passed : List Path := []
  /-- Values that are complete where they are written. -/
  complete : List Path := []

namespace Builder

/-- The tables that a dotted key under the present header goes through. -/
def passes (b : Builder) (path : Path) : List Path :=
  (List.range (path.length - 1)).map fun n => b.header ++ path.take (n + 1)

/-- Adds an entry under the present header. -/
def insert? (b : Builder) (path : Path) (v : Value) : Option Builder :=
  let whole := b.header ++ path
  let passes := b.passes path
  if passes.any b.opened.contains || isWithin b.complete whole.dropLast then none
  else
    (addAt? true whole v b.entries).map fun entries =>
      { b with
        entries := entries
        passed := passes ++ b.passed
        complete := if isComposite v then whole :: b.complete else b.complete }

/-- Starts a new section: what dotted keys went through is closed. -/
def startSection (b : Builder) (header : Path) : Builder :=
  { b with header := header, opened := b.passed ++ b.opened, passed := [] }

/-- Opens a table by its header. -/
def openTable? (b : Builder) (path : Path) : Option Builder :=
  let b := b.startSection path
  if b.opened.contains path || isWithin b.complete path then none
  else
    (updateAt? true some path b.entries).map fun entries =>
      { b with entries := entries, opened := path :: b.opened }

/-- Adds an empty table to an array of tables, or starts the array. -/
def appendTable? (name : String) (entries : List (Scalar × Value)) :
    Option (List (Scalar × Value)) :=
  match Value.named? name entries with
  | none => some (Table.insertEntry (.text name) (.list [.dict []]) entries)
  | some (.list items) =>
    some (Table.insertEntry (.text name) (.list (items ++ [.dict []])) entries)
  | some _ => none

/-- Opens the next table of an array of tables. The tables below it start afresh. -/
def openNextTable? (b : Builder) (path : Path) : Option Builder :=
  let b := b.startSection path
  if isWithin b.complete path then none
  else
    path.getLast?.bind fun name =>
      (updateAt? true (appendTable? name) path.dropLast b.entries).map fun entries =>
        { b with
          entries := entries
          opened := path :: b.opened.filter (!path.isPrefixOf ·)
          complete := b.complete.filter (!path.isPrefixOf ·) }

/-- Carries out a statement. -/
def run? (b : Builder) : Statement → Option Builder
  | .entry path v => b.insert? path v
  | .table path => b.openTable? path
  | .nextTable path => b.openNextTable? path

end Builder

/-- Reads a document, which is a table. -/
def read (document : String) : Except DocumentFault Value :=
  let cs := unifyLineEnds document.toList
  let (lines, fault) := statements (cs.length + 1) cs
  match lines.foldlM Builder.run? {}, fault with
  | none, _ => .error .malformed
  | some _, some fault => .error fault
  | some b, none => .ok (.dict b.entries)

end CallScript.Toml
