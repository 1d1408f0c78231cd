import CallScript.Node.Source
import CallScript.Proofs.LexerCorrectness
import CallScript.Proofs.Replies

/-!
# Reading a text that stands elsewhere

A text that stands some lines further down is read in the same way. Its tokens have the same kinds
and values, and only their lines differ; its tree is the same, since a tree holds no places; and an
error is the same error with its line moved down.

For the lexer this is one induction along the scan, because a place is only ever passed on
(`scan_movedDown`). A reader of tokens looks at a place only to put it into an error (`Replies`), so
here the places may change in any way at all (`Relocation`): moving down is one, and forgetting all
places is another, by which tokens can be compared that differ in nothing else.
-/

namespace CallScript

/-- **A change of places**: what becomes of lines and of columns. What has no place gets none. -/
structure Relocation where
  line : Value → Value
  column : Value → Value
  line_null : line .null = .null
  column_null : column .null = .null

variable {α : Type} {n : Nat} {m : Relocation}

/-! ## Moving down -/

/-- The number of a line, moved down. A value that is no number names no line and stays. -/
def Value.movedDown (n : Nat) : Value → Value
  | .int line => .int (line + n)
  | v => v

/-- A place, moved down. -/
def Position.movedDown (n : Nat) (p : Position) : Position := { p with line := p.line + n }

/-- A token, moved down. -/
def Token.movedDown (n : Nat) (t : Token) : Token := { t with line := t.line.movedDown n }

/-- An error, moved down. -/
def ScriptError.movedDown (n : Nat) (e : ScriptError) : ScriptError :=
  { e with line := e.line.movedDown n }

/-- Moving down leaves columns as they are. -/
def Relocation.down (n : Nat) : Relocation where
  line := Value.movedDown n
  column := id
  line_null := rfl
  column_null := rfl

/-- Forgetting all places. -/
def Relocation.forget : Relocation where
  line _ := .null
  column _ := .null
  line_null := rfl
  column_null := rfl

/-! ## Any change of places -/

/-- A token, relocated. -/
def Token.relocated (m : Relocation) (t : Token) : Token :=
  { t with line := m.line t.line, column := m.column t.column }

/-- An error, relocated. -/
def ScriptError.relocated (m : Relocation) (e : ScriptError) : ScriptError :=
  { e with line := m.line e.line, column := m.column e.column }

/-- An outcome on relocated tokens. -/
def Outcome.relocated (m : Relocation) : Outcome α → Outcome α
  | .ok a rest => .ok a (rest.map (Token.relocated m))
  | .error e rest => .error (e.relocated m) (rest.map (Token.relocated m))

/-! ## Scanning -/

theorem Position.next_movedDown (p : Position) (c : Char) :
    (p.movedDown n).next c = (p.next c).movedDown n := by
  unfold Position.next Position.movedDown
  by_cases hc : c = '\n'
  · rw [if_pos hc, if_pos hc]
    simp only [Nat.add_right_comm]
  · rw [if_neg hc, if_neg hc]

theorem Position.after_movedDown (p : Position) (cs : List Char) :
    (p.movedDown n).after cs = (p.after cs).movedDown n := by
  induction cs generalizing p with
  | nil => rfl
  | cons c cs ih =>
    show ((p.movedDown n).next c).after cs = _
    rw [Position.next_movedDown, ih]
    rfl

namespace Lexer

theorem stamp_movedDown (place : Position) (lexeme : TokenKind × Scalar) :
    stamp (place.movedDown n) lexeme = (stamp place lexeme).movedDown n := by
  simp [stamp, Position.movedDown, Token.movedDown, Value.movedDown]

/-- **Scanning further down** gives the same tokens further down and stops at the same character. -/
theorem scan_movedDown (place : Position) (cs : List Char) :
    scan (place.movedDown n) cs = ((scan place cs).1.map (Token.movedDown n),
      ⟨(scan place cs).2.place.movedDown n, (scan place cs).2.rest⟩) := by
  cases hp : readPiece cs with
  | none =>
    rw [scan_of_none hp, scan_of_none hp]
    rfl
  | some p =>
    rw [scan_of_some hp, scan_of_some hp, Position.after_movedDown, scan_movedDown]
    cases p.token <;> simp [stamp_movedDown]
termination_by cs.length
decreasing_by exact rest_length_lt_of_readPiece hp

/-- The outcome of a scan further down, with tokens before it that stay where they are. -/
theorem finish_movedDown (before tokens : List Token) (stop : Stop) :
    finish (before ++ tokens.map (Token.movedDown n)) ⟨stop.place.movedDown n, stop.rest⟩
      = match finish tokens stop with
        | .ok ts => .ok (before ++ ts.map (Token.movedDown n))
        | .error e => .error (e.movedDown n) := by
  unfold finish
  cases stop.rest with
  | nil => simp [endToken, Position.movedDown, Token.movedDown, Value.movedDown]
  | cons c rest =>
    simp [unexpectedCharacter, unexpected, Position.movedDown, ScriptError.movedDown,
      Value.movedDown]

end Lexer

/-! ## Reading -/

namespace Parser

/-- An error takes its place from the token at which the reader stands, and has none at the end of
the tokens. -/
theorem unexpected_relocated (message : String) (expected : List String)
    (suggestion : Option String) (ts : List Token) :
    unexpected message expected suggestion (ts.map (Token.relocated m))
      = (unexpected message expected suggestion ts).relocated m := by
  cases ts with
  | nil => simp [unexpected, ScriptError.relocated, m.line_null, m.column_null]
  | cons t ts => rfl

theorem Reply.on_relocated (r : Reply α) (ts : List Token) :
    r.on (ts.map (Token.relocated m)) = (r.on ts).relocated m := by
  cases r with
  | answer a taken => simp only [Reply.on, Outcome.relocated, List.map_drop]
  | complaint message expected suggestion taken =>
    simp only [Reply.on, Outcome.relocated, ← List.map_drop, unexpected_relocated]

theorem alike_relocated (ts : List Token) : Alike (ts.map (Token.relocated m)) ts := by
  rw [Alike, List.map_map]
  rfl

/-- **Reading at other places** gives the same answer, or fails with the same error at another
place. -/
theorem Replies.relocated {p : Parser α} (h : Replies (fun _ => True) p) (ts : List Token) :
    p (ts.map (Token.relocated m)) = (p ts).relocated m := by
  obtain ⟨r, -, hr⟩ := h ts fun _ _ _ => trivial
  rw [hr _ (alike_relocated ts), hr ts rfl, r.on_relocated]

end Parser

/-- **The tree of tokens at other places** is the same tree, and an error the same error at another
place. -/
theorem parse_relocated (m : Relocation) (ts : List Token) :
    parse (ts.map (Token.relocated m))
      = match parse ts with
        | .ok node => .ok node
        | .error e => .error (e.relocated m) := by
  unfold parse Parser.program Parser.bind
  rw [Parser.replies_statements.relocated]
  cases Parser.statements ts <;> rfl

end CallScript
