import CallScript.Binary64.Numeral
import CallScript.ScriptError
import CallScript.Token.Basic

/-!
# From text to tokens

A source text is a sequence of pieces: gaps (blanks and comments), which are dropped, and lexemes,
each of which is a token. At every point the first character decides what kind of piece stands
there, and the piece is as long as it can be. `readPiece` reads one piece; `scan` reads pieces
until the text ends or no piece fits, and keeps the place where it stopped in either case.
-/

namespace CallScript

/-- A place in a source text; lines and columns count from one. -/
structure Position where
  line : Nat := 1
  column : Nat := 1
deriving DecidableEq

namespace Position

/-- The place after a character. -/
def next (p : Position) (c : Char) : Position :=
  if c = '\n' then ⟨p.line + 1, 1⟩ else ⟨p.line, p.column + 1⟩

/-- The place after a text. -/
def after (p : Position) (cs : List Char) : Position := cs.foldl next p

end Position

namespace Lexer

/-- A character that may start a name. -/
def isNameStart (c : Char) : Bool :=
  ('a' ≤ c && c ≤ 'z') || ('A' ≤ c && c ≤ 'Z') || c = '_'

/-- A character that may continue a name. -/
def isNameChar (c : Char) : Bool :=
  isNameStart c || Binary64.isBasicDigit c

/-- A character of a run of digits and points. -/
def isNumberChar (c : Char) : Bool :=
  Binary64.isBasicDigit c || c = '.'

/-- The one-character tokens. -/
def punctuation? : Char → Option TokenKind
  | '.' => some .dot
  | '(' => some .leftParen
  | ')' => some .rightParen
  | ';' => some .semicolon
  | _ => none

/-- The kind of a name: one name is a keyword. -/
def nameKind (name : List Char) : TokenKind :=
  if name = ['c', 'o', 'r', 'e'] then .core else .identifier

/-- The inside of a string literal: its value, what was consumed, and the rest. -/
structure StringBody where
  value : List Char
  consumed : List Char
  rest : List Char

/-- Puts a character in front of the inside of a string literal, where it was written as the given
text. -/
def StringBody.push (c : Char) (spelling : List Char) (body : StringBody) : StringBody :=
  ⟨c :: body.value, spelling ++ body.consumed, body.rest⟩

/-- Reads the inside of a string literal up to and including the closing quote. A backslash is
dropped and the character after it kept, whatever it is. The end of the text ends the literal. -/
def readStringBody : List Char → StringBody
  | [] => ⟨[], [], []⟩
  | '"' :: rest => ⟨[], ['"'], rest⟩
  | ['\\'] => ⟨[], ['\\'], []⟩
  | '\\' :: c :: rest => (readStringBody rest).push c ['\\', c]
  | c :: rest => (readStringBody rest).push c [c]

/-- One piece of a source text: the token it is, if any, what it consumed, and the rest. -/
structure Piece where
  token : Option (TokenKind × Scalar)
  consumed : List Char
  rest : List Char

/-- The piece made of the longest run of a class. -/
def runOf (inClass : Char → Bool) (token : List Char → Option (TokenKind × Scalar))
    (cs : List Char) : Piece :=
  ⟨token (cs.takeWhile inClass), cs.takeWhile inClass, cs.dropWhile inClass⟩

/-- The piece at the start of a text. There is none at the end, nor where the first character
starts no piece. -/
def readPiece : List Char → Option Piece
  | [] => none
  | c :: cs =>
    if Text.isBlank c then some (runOf Text.isBlank (fun _ => none) (c :: cs))
    else if c = '/' && cs.head? = some '/' then
      some (runOf (· ≠ '\n') (fun _ => none) (c :: cs))
    else if isNameStart c then
      some (runOf isNameChar (fun name => some (nameKind name, .text (String.ofList name)))
        (c :: cs))
    else if c = '"' then
      let body := readStringBody cs
      some ⟨some (.string, .text (String.ofList body.value)), c :: body.consumed, body.rest⟩
    else if Binary64.isBasicDigit c then
      some (runOf isNumberChar (fun run => some (.number, .float (Binary64.literalValue run)))
        (c :: cs))
    else (punctuation? c).map fun kind => ⟨some (kind, .null), [c], cs⟩

/-! ## A piece is never empty -/

theorem readStringBody_rest_length (cs : List Char) :
    (readStringBody cs).rest.length ≤ cs.length := by
  fun_induction readStringBody cs <;> simp_all [StringBody.push] <;> omega

theorem dropWhile_length_lt {p : Char → Bool} {c : Char} (cs : List Char) (h : p c = true) :
    ((c :: cs).dropWhile p).length < (c :: cs).length := by
  have := (List.dropWhile_sublist p (l := cs)).length_le
  simp [h]
  omega

/-- **A piece consumes something.** What is left after a piece is shorter than the text. -/
theorem rest_length_lt_of_readPiece {cs : List Char} {p : Piece} (h : readPiece cs = some p) :
    p.rest.length < cs.length := by
  match cs, h with
  | c :: cs, h =>
    simp only [readPiece] at h
    split at h
    · next hb =>
      cases h
      exact dropWhile_length_lt cs hb
    · split at h
      · next hc =>
        cases h
        refine dropWhile_length_lt (p := (· ≠ '\n')) cs ?_
        simp_all
      · split at h
        · next hn =>
          cases h
          exact dropWhile_length_lt cs (by simp [isNameChar, hn])
        · split at h
          · cases h
            have := readStringBody_rest_length cs
            simp only [List.length_cons]
            omega
          · split at h
            · next hd =>
              cases h
              exact dropWhile_length_lt cs (by simp [isNumberChar, hd])
            · obtain ⟨kind, -, rfl⟩ := Option.map_eq_some_iff.1 h
              simp

/-! ## Scanning -/

/-- Where a scan stopped. Nothing is left exactly when it reached the end. -/
structure Stop where
  place : Position
  rest : List Char

/-- The token of a lexeme that starts at a place. -/
def stamp (place : Position) (lexeme : TokenKind × Scalar) : Token :=
  ⟨lexeme.1, .scalar lexeme.2, .int place.line, .int place.column⟩

/-- Reads pieces for as long as there are any. -/
def scan (place : Position) (cs : List Char) : List Token × Stop :=
  match _h : readPiece cs with
  | none => ([], ⟨place, cs⟩)
  | some piece =>
    let (tokens, stop) := scan (place.after piece.consumed) piece.rest
    ((piece.token.map (stamp place)).toList ++ tokens, stop)
termination_by cs.length
decreasing_by exact rest_length_lt_of_readPiece ‹_›

/-- The error of something that starts no piece, with its display form. -/
def unexpected (shown : String) (character line column : Value) : ScriptError where
  cause := .unexpectedCharacter { found := .text shown } character
  message := .text ("Unexpected character: " ++ shown)
  line := line
  column := column

/-- The error of a character, given as a text, that starts no piece. -/
def unexpectedCharacter (character : String) (line column : Value) : ScriptError :=
  unexpected (Text.display character) (.text character) line column

/-- The token that marks the end of a source text. -/
def endToken (place : Position) : Token :=
  ⟨.endOfInput, .null, .int place.line, .int place.column⟩

/-- The outcome of a scan: the tokens and the end of input, or the character it stopped at. -/
def finish (tokens : List Token) (stop : Stop) : Except ScriptError (List Token) :=
  match stop.rest with
  | [] => .ok (tokens ++ [endToken stop.place])
  | c :: _ =>
    .error (unexpectedCharacter (String.singleton c) (.int stop.place.line)
      (.int stop.place.column))

end Lexer

/-- The tokens of a source text, the end of input last. -/
def tokenize (source : String) : Except ScriptError (List Token) :=
  let (tokens, stop) := Lexer.scan {} source.toList
  Lexer.finish tokens stop

end CallScript
