import CallScript.Proofs.LexerCorrectness
import CallScript.Token.Scanner

/-!
# A scan, round by round

`Scanner.tokenize` scans a source text as a whole. The same can be done with the operations of a
scanner alone, in rounds: a round moves over blanks, and the character ahead decides which operation
reads on from there. A round has two ways to fail. The character ahead may start nothing, and the
operation that reads a number may find that there is none (`ScanFailure`).

Rounds and scan come to the same, in what they answer and in where they leave the scanner
(`tokenize_eq_rounds`). The second failure has no counterpart in a scan, and so it never happens.
The proof takes one round as one piece of the text (`readLexeme_of_some`, `readLexeme_of_none`), and
the induction is on the text that is left.
-/

namespace CallScript

open LexicalGrammar

/-- Why a scan in rounds fails. -/
inductive ScanFailure where
  /-- A run of digits and points that is not a number. -/
  | notNumeric (e : Binary64.NotNumeric)
  /-- A character that starts nothing. -/
  | unexpected (e : ScriptError)

namespace Scanner

variable {s : Scanner}

/-! ## Moving forward -/

theorem consume_append (s : Scanner) (a b : List Char) :
    s.consume (a ++ b) = (s.consume a).consume b := by
  simp [consume, Nat.add_assoc, Position.after_append]

theorem rest_consume (s : Scanner) (text : List Char) :
    (s.consume text).rest = s.rest.drop text.length :=
  (List.drop_drop).symm

theorem rest_consume_of_append {text behind : List Char} (h : s.rest = text ++ behind) :
    (s.consume text).rest = behind := by
  rw [rest_consume, h, List.drop_left]

/-- A scanner does not move past the end. -/
theorem pos_consume_le {text behind : List Char} (h : s.rest = text ++ behind)
    (hpos : s.pos ≤ s.source.length) : (s.consume text).pos ≤ s.source.length := by
  have hlength := congrArg List.length h
  rw [rest, List.length_drop, List.length_append] at hlength
  show s.pos + text.length ≤ s.source.length
  omega

/-- The position, by what is left. -/
theorem length_sub_rest (hpos : s.pos ≤ s.source.length) :
    s.source.length - s.rest.length = s.pos := by
  rw [rest, List.length_drop]
  omega

theorem rest_skipBlanks (s : Scanner) : s.skipBlanks.rest = s.rest.dropWhile Text.isBlank :=
  rest_consume_of_append List.takeWhile_append_dropWhile.symm

theorem pos_skipBlanks_le (hpos : s.pos ≤ s.source.length) :
    s.skipBlanks.pos ≤ s.source.length :=
  pos_consume_le List.takeWhile_append_dropWhile.symm hpos

/-! ## One round -/

/-- Reads what starts at the character ahead, which is not a blank, and adds its token. -/
def readLexeme (s : Scanner) : Except ScanFailure Unit × Scanner :=
  match s.rest with
  | [] => (.ok (), s)
  | c :: cs =>
    if c = '/' && cs.head? = some '/' then (.ok (), s.skipLine)
    else if Lexer.isNameStart c then
      let (name, after) := s.readName
      (.ok (), after.addToken (Lexer.stamp s.place (Lexer.nameKind name.toList, .text name)))
    else if c = '"' then
      let (text, after) := s.readString
      (.ok (), after.addToken (Lexer.stamp s.place (.string, .text text)))
    else if Binary64.isBasicDigit c then
      match s.readNumber with
      | (.ok x, after) => (.ok (), after.addToken (Lexer.stamp s.place (.number, .float x)))
      | (.error e, after) => (.error (.notNumeric e), after)
    else
      match Lexer.punctuation? c with
      | some kind => (.ok (), (s.addToken (Lexer.stamp s.place (kind, .null))).advance.2)
      | none =>
        (.error (.unexpected (Lexer.unexpectedCharacter
          (String.singleton c) (.int s.place.line) (.int s.place.column))), s)

/-- One round of a scan. -/
def round (s : Scanner) : Except ScanFailure Unit × Scanner := s.skipBlanks.readLexeme

/-- Moves over a piece and adds its token, if it is one. -/
def pass (s : Scanner) (p : Lexer.Piece) : Scanner :=
  { s.consume p.consumed with
    tokens := s.tokens ++ (p.token.map (Lexer.stamp s.place)).toList }

theorem pass_gap (s : Scanner) (text behind : List Char) :
    s.pass ⟨none, text, behind⟩ = s.consume text := by
  simp [pass, consume]

theorem pass_lexeme (s : Scanner) (lexeme : TokenKind × Scalar) (text behind : List Char) :
    s.pass ⟨some lexeme, text, behind⟩
      = (s.consume text).addToken (Lexer.stamp s.place lexeme) := rfl

theorem rest_pass {p : Lexer.Piece} (h : Lexer.readPiece s.rest = some p) :
    (s.pass p).rest = p.rest :=
  rest_consume_of_append (Lexer.Piece.lexical_of_readPiece h).1.symm

theorem advance_of_cons {c : Char} {cs : List Char} (h : s.rest = c :: cs) :
    s.advance = (some c, s.consume [c]) := by
  unfold advance
  rw [h]

theorem readString_of_cons {c : Char} {cs : List Char} (h : s.rest = c :: cs) :
    s.readString = (String.ofList (Lexer.readStringBody cs).value,
      s.consume (c :: (Lexer.readStringBody cs).consumed)) := by
  have hbehind : (s.consume [c]).rest = cs := rest_consume_of_append h
  unfold readString
  rw [advance_of_cons h]
  dsimp only
  rw [hbehind, ← consume_append]
  rfl

/-- **Where a digit is ahead a number is read.** -/
theorem readNumber_of_cons {c : Char} {cs : List Char} (h : s.rest = c :: cs)
    (hc : Binary64.isBasicDigit c = true) :
    s.readNumber = (.ok (Binary64.literalValue ((c :: cs).takeWhile Lexer.isNumberChar)),
      s.consume ((c :: cs).takeWhile Lexer.isNumberChar)) := by
  have hnumber : Lexer.isNumberChar c = true := by simp [Lexer.isNumberChar, hc]
  unfold readNumber readRun
  rw [h, List.takeWhile_cons_of_pos hnumber]
  dsimp only
  rw [Lexer.readLiteral_of_isBasicDigit hc]

/-- **A round reads one piece**, whichever operation it leaves that to. -/
theorem readLexeme_of_some {c : Char} {cs : List Char} {p : Lexer.Piece} (hrest : s.rest = c :: cs)
    (hblank : Text.isBlank c = false) (h : Lexer.readPiece s.rest = some p) :
    s.readLexeme = (.ok (), s.pass p) := by
  unfold readLexeme
  rw [hrest] at h ⊢
  rw [Lexer.readPiece, if_neg (by simp [hblank])] at h
  dsimp only at h ⊢
  split_ifs at h ⊢ with hcomment hname hquote hdigit
  · obtain rfl := Option.some.inj h
    rw [Lexer.runOf, pass_gap, ← hrest]
    rfl
  · obtain rfl := Option.some.inj h
    rw [Lexer.runOf, pass_lexeme, readName, readRun, hrest, String.toList_ofList]
  · obtain rfl := Option.some.inj h
    rw [pass_lexeme, readString_of_cons hrest]
  · obtain rfl := Option.some.inj h
    rw [Lexer.runOf, pass_lexeme, readNumber_of_cons hrest hdigit]
  · obtain ⟨kind, hkind, rfl⟩ := Option.map_eq_some_iff.mp h
    have hadded : (s.addToken (Lexer.stamp s.place (kind, .null))).rest = c :: cs := hrest
    rw [hkind, pass_lexeme]
    dsimp only
    rw [advance_of_cons hadded]
    rfl

theorem readLexeme_of_none {c : Char} {cs : List Char} (hrest : s.rest = c :: cs)
    (h : Lexer.readPiece s.rest = none) :
    s.readLexeme = (.error (.unexpected (Lexer.unexpectedCharacter
      (String.singleton c) (.int s.place.line) (.int s.place.column))), s) := by
  rw [hrest] at h
  obtain ⟨-, hcomment, hname, hquote, hdigit, hpunctuation⟩ := Lexer.readPiece_eq_none_iff.mp h
  unfold readLexeme
  rw [hrest]
  dsimp only
  rw [if_neg (by simpa using hcomment), if_neg (by simp [hname]), if_neg hquote,
    if_neg (by simp [hdigit]), hpunctuation]

theorem readLexeme_of_nil (h : s.rest = []) : s.readLexeme = (.ok (), s) := by
  unfold readLexeme
  rw [h]

/-- What is ahead once the blanks are passed. -/
theorem isBlank_of_skipBlanks {c : Char} {cs : List Char} (h : s.skipBlanks.rest = c :: cs) :
    Text.isBlank c = false := by
  rw [rest_skipBlanks] at h
  have hbounded := bounded_dropWhile Text.isBlank s.rest
  rw [h] at hbounded
  exact hbounded c rfl

/-- **What a round can do**: it passes the last blanks, or a piece behind blanks, or it fails at a
character that starts nothing. -/
theorem round_cases (s : Scanner) :
    (s.skipBlanks.rest = [] ∧ s.round = (.ok (), s.skipBlanks)) ∨
    (∃ p, Lexer.readPiece s.skipBlanks.rest = some p ∧ s.round = (.ok (), s.skipBlanks.pass p)) ∨
    ∃ c cs, s.skipBlanks.rest = c :: cs ∧ Lexer.readPiece s.skipBlanks.rest = none ∧
      s.round = (.error (.unexpected (Lexer.unexpectedCharacter
        (String.singleton c) (.int s.skipBlanks.place.line)
        (.int s.skipBlanks.place.column))), s.skipBlanks) := by
  unfold round
  cases hahead : s.skipBlanks.rest with
  | nil => exact .inl ⟨rfl, readLexeme_of_nil hahead⟩
  | cons c cs =>
    rw [← hahead]
    cases hpiece : Lexer.readPiece s.skipBlanks.rest with
    | none => exact .inr (.inr ⟨c, cs, hahead, rfl, readLexeme_of_none hahead hpiece⟩)
    | some p =>
      exact .inr (.inl ⟨p, rfl,
        readLexeme_of_some hahead (isBlank_of_skipBlanks hahead) hpiece⟩)

/-- A round that does not fail leaves less than it found. -/
theorem rest_length_lt_of_round {c : Char} {cs : List Char} {t : Scanner} (hrest : s.rest = c :: cs)
    (h : s.round = (.ok (), t)) : t.rest.length < s.rest.length := by
  have hle : s.skipBlanks.rest.length ≤ s.rest.length := by
    rw [rest_skipBlanks]
    exact (List.dropWhile_sublist _).length_le
  obtain ⟨hahead, hround⟩ | ⟨p, hpiece, hround⟩ | ⟨d, ds, -, -, hround⟩ := round_cases s
  · rw [hround] at h
    obtain rfl := (Prod.mk.inj h).2
    rw [hahead, hrest]
    exact Nat.succ_pos _
  · rw [hround] at h
    obtain rfl := (Prod.mk.inj h).2
    rw [rest_pass hpiece]
    exact Nat.lt_of_lt_of_le (Lexer.rest_length_lt_of_readPiece hpiece) hle
  · rw [hround] at h
    cases (Prod.mk.inj h).1

/-! ## All rounds -/

/-- **Scans round by round**, from where the scanner stands. -/
def rounds (s : Scanner) : Except ScanFailure (List Token) × Scanner :=
  match _hrest : s.rest with
  | [] => (.ok (s.tokens ++ [Lexer.endToken s.place]), s.addToken (Lexer.endToken s.place))
  | _ :: _ =>
    match _hround : s.round with
    | (.ok (), after) => after.rounds
    | (.error e, after) => (.error e, after)
termination_by s.rest.length
decreasing_by exact rest_length_lt_of_round ‹_› ‹_›

/-- What a scanner answers and becomes when a scan of its rest has given some tokens and stopped. -/
def settled (s : Scanner) (scanned : List Token × Lexer.Stop) :
    Except ScanFailure (List Token) × Scanner :=
  let outcome := Lexer.finish (s.tokens ++ scanned.1) scanned.2
  let kept := match outcome with
    | .ok all => all
    | .error _ => s.tokens ++ scanned.1
  (outcome.mapError .unexpected, { s with
    pos := s.source.length - scanned.2.rest.length, place := scanned.2.place, tokens := kept })

theorem settled_pass (s : Scanner) (p : Lexer.Piece) (scanned : List Token × Lexer.Stop) :
    (s.pass p).settled scanned
      = s.settled ((p.token.map (Lexer.stamp s.place)).toList ++ scanned.1, scanned.2) := by
  simp [settled, pass, consume, List.append_assoc]

theorem scan_skipBlanks (s : Scanner) :
    Lexer.scan s.skipBlanks.place s.skipBlanks.rest = Lexer.scan s.place s.rest := by
  rw [rest_skipBlanks]
  exact (Lexer.scan_blanks s.place s.rest).symm

/-- A scan that stops at once leaves the scanner where it is. -/
theorem settled_nil_of_cons {c : Char} {cs : List Char} (hrest : s.rest = c :: cs)
    (hpos : s.pos ≤ s.source.length) :
    s.settled ([], ⟨s.place, s.rest⟩)
      = (.error (.unexpected (Lexer.unexpectedCharacter
          (String.singleton c) (.int s.place.line) (.int s.place.column))), s) := by
  have hend := length_sub_rest hpos
  unfold settled
  rw [List.append_nil]
  dsimp only
  rw [hend, hrest]
  rfl

theorem settled_nil_of_nil (hrest : s.rest = []) (hpos : s.pos ≤ s.source.length) :
    s.settled ([], ⟨s.place, s.rest⟩)
      = (.ok (s.tokens ++ [Lexer.endToken s.place]), s.addToken (Lexer.endToken s.place)) := by
  have hend := length_sub_rest hpos
  unfold settled
  rw [List.append_nil]
  dsimp only
  rw [hend, hrest]
  rfl

/-- **Rounds come to what a scan comes to.** -/
theorem rounds_eq (s : Scanner) (hpos : s.pos ≤ s.source.length) :
    s.rounds = s.settled (Lexer.scan s.place s.rest) := by
  fun_induction rounds s with
  | case1 s hrest =>
    have hnone : Lexer.readPiece s.rest = none := by rw [hrest]; rfl
    rw [Lexer.scan_of_none hnone, settled_nil_of_nil hrest hpos]
  | case2 s c cs hrest t hround ih =>
    rw [← scan_skipBlanks]
    obtain ⟨-, h⟩ | ⟨p, hpiece, h⟩ | ⟨d, ds, -, -, h⟩ := round_cases s
    · obtain rfl := (Prod.mk.inj (h.symm.trans hround)).2
      exact ih (pos_skipBlanks_le hpos)
    · obtain rfl := (Prod.mk.inj (h.symm.trans hround)).2
      have htext := (Lexer.Piece.lexical_of_readPiece hpiece).1.symm
      rw [ih (pos_consume_le htext (pos_skipBlanks_le hpos)), settled_pass, rest_pass hpiece,
        Lexer.scan_of_some hpiece]
      rfl
    · cases (Prod.mk.inj (h.symm.trans hround)).1
  | case3 s c cs hrest e t hround =>
    rw [← scan_skipBlanks]
    obtain ⟨-, h⟩ | ⟨p, -, h⟩ | ⟨d, ds, hahead, hpiece, h⟩ := round_cases s
    · cases (Prod.mk.inj (h.symm.trans hround)).1
    · cases (Prod.mk.inj (h.symm.trans hround)).1
    · obtain ⟨he, rfl⟩ := Prod.mk.inj (h.symm.trans hround)
      obtain rfl := Except.error.inj he
      rw [Lexer.scan_of_none hpiece]
      exact (settled_nil_of_cons hahead (pos_skipBlanks_le hpos)).symm

/-- **A scan of the whole text and rounds from its start come to the same**, whatever the scanner
has done before. -/
theorem tokenize_eq_rounds (s : Scanner) :
    s.reset.rounds = (s.tokenize.1.mapError .unexpected, s.tokenize.2) :=
  rounds_eq s.reset (Nat.zero_le _)

end Scanner

end CallScript
