import CallScript.Lookahead
import CallScript.Token.Lexer

/-!
# A scanner with a memory

The reading of single lexemes, step by step: a scanner remembers how far it has read, the place it
has reached and the tokens collected so far. Every operation moves forward over the characters it
consumes, and the place follows those characters; only a reset or a new scan goes back to the
start. An operation that fails leaves the scanner where it stopped.
-/

namespace CallScript

/-- A source text and how far it has been read. -/
structure Scanner where
  source : List Char
  pos : Nat := 0
  place : Position := {}
  tokens : List Token := []

namespace Scanner

/-- A scanner at the start of a source text. -/
def ofSource (source : String) : Scanner := { source := source.toList }

/-- What has not been read yet. -/
def rest (s : Scanner) : List Char := s.source.drop s.pos

/-- Moves over a text that stands at the start of the rest. -/
def consume (s : Scanner) (consumed : List Char) : Scanner :=
  { s with pos := s.pos + consumed.length, place := s.place.after consumed }

/-- Looks at a character relative to the current one. -/
def peek (s : Scanner) (offset : Int) : Glance Char :=
  glance s.source (s.pos + offset)

/-- Reads one character; there is none at the end. -/
def advance (s : Scanner) : Option Char × Scanner :=
  match s.rest with
  | [] => (none, s)
  | c :: _ => (some c, s.consume [c])

/-- Reads the longest run of a class. -/
def readRun (inClass : Char → Bool) (s : Scanner) : List Char × Scanner :=
  let run := s.rest.takeWhile inClass
  (run, s.consume run)

/-- Moves over blanks. -/
def skipBlanks (s : Scanner) : Scanner := (s.readRun Text.isBlank).2

/-- Moves to the end of the line. -/
def skipLine (s : Scanner) : Scanner := (s.readRun (· ≠ '\n')).2

/-- Reads a name, which may be empty here. -/
def readName (s : Scanner) : String × Scanner :=
  let (name, s) := s.readRun Lexer.isNameChar
  (String.ofList name, s)

/-- Reads a string literal, whatever its first character is. -/
def readString (s : Scanner) : String × Scanner :=
  let s := s.advance.2
  let body := Lexer.readStringBody s.rest
  (String.ofList body.value, s.consume body.consumed)

/-- Reads a run of digits and points. The run is consumed whether it is a number or not. -/
def readNumber (s : Scanner) : Except Binary64.NotNumeric Binary64 × Scanner :=
  let (run, s) := s.readRun Lexer.isNumberChar
  (Binary64.readLiteral (String.ofList run), s)

/-- Goes back to the start and forgets the tokens. -/
def reset (s : Scanner) : Scanner := { source := s.source }

/-- Adds a token to those collected. -/
def addToken (s : Scanner) (t : Token) : Scanner := { s with tokens := s.tokens ++ [t] }

/-- The error of a character, which may be any value here that can be written. -/
def error (methodsOf : Nat → List Scalar) (character line column : Value) :
    Except ForeignError ScriptError :=
  (character.display methodsOf).map fun shown => Lexer.unexpected shown character line column

/-- Scans the whole source text, from the start. -/
def tokenize (s : Scanner) : Except ScriptError (List Token) × Scanner :=
  let (tokens, stop) := Lexer.scan {} s.source
  let outcome := Lexer.finish tokens stop
  let kept := match outcome with
    | .ok all => all
    | .error _ => tokens
  (outcome, { s with
    pos := s.source.length - stop.rest.length, place := stop.place, tokens := kept })

end Scanner

end CallScript
