import CallScript.Value.Render

/-!
# Tokens

A token has a kind, a payload and the place of its first character. Commas and brackets belong to
the grammar although no source text produces them. A token of a source text has a scalar as its
payload and two integers as its place; tokens that are made by hand may hold any values.
-/

namespace CallScript

/-- The kinds of tokens. -/
inductive TokenKind where
  | core
  | identifier
  | string
  | number
  | dot
  | leftParen
  | rightParen
  | semicolon
  | comma
  | leftBracket
  | rightBracket
  | endOfInput
deriving DecidableEq

/-- The name by which messages refer to a kind of token. -/
def TokenKind.name : TokenKind → String
  | core => "CORE"
  | identifier => "IDENTIFIER"
  | string => "STRING"
  | number => "NUMBER"
  | dot => "DOT"
  | leftParen => "LPAREN"
  | rightParen => "RPAREN"
  | semicolon => "SEMICOLON"
  | comma => "COMMA"
  | leftBracket => "LBRACKET"
  | rightBracket => "RBRACKET"
  | endOfInput => "EOF"

/-- A token and the place of its first character. -/
structure Token where
  kind : TokenKind
  value : Value
  line : Value
  column : Value

/-- A token for display, given the names of the methods of each registry. -/
def Token.display (methodsOf : Nat → List Scalar) (t : Token) : Except ForeignError String := do
  let value ← t.value.display methodsOf
  let line ← t.line.plain methodsOf
  let column ← t.column.plain methodsOf
  return "Token(" ++ t.kind.name ++ ", " ++ value ++ ", " ++ line ++ ":" ++ column ++ ")"

/-- The name that an identifier carries. One made by hand whose payload cannot be written counts as
nameless. -/
def Token.name (t : Token) : String := (t.value.plain Value.noRegistries).toOption.getD ""

end CallScript
