import CallScript.Proofs.ScanRounds

/-!
# A scanner knows its place

A scanner counts three things: the characters it has read, the lines, and the columns of the line it
is in. They are counted up together, in one operation, which reads one character; all the others are
made of that one. So an embedding program may call the operations in any order, from any position
and with any outcome: the scanner stands within the text, and its place is the one that counting in
the text before it gives (`Scanner.Anchored`).

What an operation can do is said once (`Scanner.perform_ahead`): it goes ahead from where the
scanner stands, or from the start, by reading single characters and adding tokens
(`Scanner.Ahead`). All that is claimed of the operations follows from this by induction.
-/

namespace CallScript

namespace Scanner

variable {s t : Scanner}

/-! ## Going ahead -/

/-- **A scanner that is ahead of another**: it is reached by reading single characters and adding
tokens. -/
inductive Ahead (s : Scanner) : Scanner → Prop where
  | refl : Ahead s s
  | advance {t : Scanner} (h : Ahead s t) : Ahead s t.advance.2
  | addToken {t : Scanner} (h : Ahead s t) (token : Token) : Ahead s (t.addToken token)

theorem Ahead.trans {u : Scanner} (h : s.Ahead t) (h' : t.Ahead u) : s.Ahead u := by
  induction h' with
  | refl => exact h
  | advance _ ih => exact ih.advance
  | addToken _ token ih => exact ih.addToken token

/-- A text that stands ahead is passed character by character. -/
theorem ahead_consume {text : List Char} (htext : text <+: s.rest) : s.Ahead (s.consume text) := by
  induction text generalizing s with
  | nil => exact .refl
  | cons c text ih =>
    obtain ⟨behind, hbehind⟩ := htext
    have hrest : s.rest = c :: (text ++ behind) := hbehind.symm
    have hfirst : s.Ahead (s.consume [c]) := by
      have h : s.Ahead s.advance.2 := .advance .refl
      rwa [advance_of_cons hrest] at h
    have hmore : text <+: (s.consume [c]).rest := by
      rw [rest_consume_of_append hrest]
      exact List.prefix_append text behind
    have hboth : s.consume (c :: text) = (s.consume [c]).consume text := consume_append s [c] text
    rw [hboth]
    exact hfirst.trans (ih hmore)

/-- Reading a run advances character by character. -/
theorem ahead_readRun (inClass : Char → Bool) (s : Scanner) : s.Ahead (s.readRun inClass).2 :=
  ahead_consume (List.takeWhile_prefix _)

theorem ahead_skipBlanks (s : Scanner) : s.Ahead s.skipBlanks := ahead_readRun _ s

/-- The inside of a string literal stands at the start of the text it is read from. -/
theorem isPrefix_consumed (cs : List Char) : (Lexer.readStringBody cs).consumed <+: cs := by
  obtain ⟨w, v, close, rest, hquoted, hclose, rfl⟩ := Lexer.exists_quoted cs
  rw [Lexer.readStringBody_closing hquoted hclose, ← List.append_assoc]
  exact List.prefix_append _ _

theorem ahead_readString (s : Scanner) : s.Ahead s.readString.2 :=
  Ahead.trans (.advance .refl) (ahead_consume (isPrefix_consumed _))

/-- Reading a lexeme advances, whatever it starts with. -/
theorem ahead_readLexeme (s : Scanner) : s.Ahead s.readLexeme.2 := by
  unfold readLexeme
  split
  · exact .refl
  · split_ifs
    · exact ahead_readRun _ s
    · exact (ahead_readRun _ s).addToken _
    · exact (ahead_readString s).addToken _
    · have hnumber : s.Ahead s.readNumber.2 := ahead_readRun _ s
      split
      · next h => rw [h] at hnumber; exact hnumber.addToken _
      · next h => rwa [h] at hnumber
    · split
      · exact (Ahead.refl.addToken _).advance
      · exact .refl

/-- Rounds of lexemes and gaps advance. -/
theorem ahead_rounds (s : Scanner) : s.Ahead s.rounds.2 := by
  have hround : ∀ s : Scanner, s.Ahead s.round.2 :=
    fun s => (ahead_skipBlanks s).trans (ahead_readLexeme _)
  fun_induction rounds s with
  | case1 s hrest => exact Ahead.refl.addToken _
  | case2 s c cs hrest t h ih =>
    have hstep := hround s
    rw [h] at hstep
    exact hstep.trans ih
  | case3 s c cs hrest e t h =>
    have hstep := hround s
    rwa [h] at hstep

/-- **Tokenizing starts over and only advances from there.** -/
theorem ahead_tokenize (s : Scanner) : s.reset.Ahead s.tokenize.2 := by
  have h := ahead_rounds s.reset
  rwa [tokenize_eq_rounds] at h

/-! ## What a scanner ahead keeps -/

theorem advance_of_nil (h : s.rest = []) : s.advance = (none, s) := by
  unfold advance
  rw [h]

theorem source_advance (s : Scanner) : s.advance.2.source = s.source := by
  cases hrest : s.rest with
  | nil => rw [advance_of_nil hrest]
  | cons c cs => rw [advance_of_cons hrest]; rfl

theorem pos_le_advance (s : Scanner) : s.pos ≤ s.advance.2.pos := by
  cases hrest : s.rest with
  | nil => rw [advance_of_nil hrest]
  | cons c cs => rw [advance_of_cons hrest]; exact Nat.le_add_right _ _

/-- Advancing does not change the source text. -/
theorem Ahead.source_eq (h : s.Ahead t) : t.source = s.source := by
  induction h with
  | refl => rfl
  | advance _ ih => rw [source_advance, ih]
  | addToken _ token ih => exact ih

/-- Advancing does not go back. -/
theorem Ahead.pos_le (h : s.Ahead t) : s.pos ≤ t.pos := by
  induction h with
  | refl => exact Nat.le_refl _
  | advance _ ih => exact Nat.le_trans ih (pos_le_advance _)
  | addToken _ token ih => exact ih

/-- **A scanner that knows its place**: it stands within the text, at the place that the text before
it leaves. -/
structure Anchored (s : Scanner) : Prop where
  pos_le : s.pos ≤ s.source.length
  place_eq : s.place = placeAfter (s.source.take s.pos)

theorem anchored_reset (s : Scanner) : s.reset.Anchored := ⟨Nat.zero_le _, rfl⟩

/-- **Reading one character keeps the place.** -/
theorem Anchored.advance (h : s.Anchored) : s.advance.2.Anchored := by
  cases hrest : s.rest with
  | nil => rwa [advance_of_nil hrest]
  | cons c cs =>
    have htake : s.source.take (s.pos + 1) = s.source.take s.pos ++ [c] := by
      have hc : s.source[s.pos]? = some c := by
        rw [← List.head?_drop]
        exact congrArg List.head? hrest
      rw [List.take_add_one, hc]
      rfl
    rw [advance_of_cons hrest]
    refine ⟨@pos_consume_le s [c] cs hrest h.pos_le, ?_⟩
    show s.place.next c = placeAfter (s.source.take (s.pos + 1))
    rw [htake, placeAfter_concat, h.place_eq]

/-- **A scanner that knows its place still does after advancing.** -/
theorem Anchored.ahead (h : s.Anchored) (ht : s.Ahead t) : t.Anchored := by
  induction ht with
  | refl => exact h
  | advance _ ih => exact ih.advance
  | addToken _ token ih => exact ⟨ih.pos_le, ih.place_eq⟩

/-! ## Calls -/

/-- A call of an operation. -/
inductive Call where
  | peek (offset : Int)
  | advance
  | skipBlanks
  | skipLine
  | readName
  | readString
  | readNumber
  | reset
  | addToken (token : Token)
  | tokenize

/-- What a call answers. -/
inductive Reply where
  | glance (ahead : Glance Char)
  | character (c : Option Char)
  | done
  | text (text : String)
  | number (x : Except Binary64.NotNumeric Binary64)
  | tokens (tokens : Except ScriptError (List Token))

/-- Whether an answer is an error. -/
def Reply.isError : Reply → Bool
  | glance .outOfRange => true
  | number (.error _) => true
  | tokens (.error _) => true
  | _ => false

/-- The answer to a call, and the scanner after it. -/
def perform (s : Scanner) : Call → Reply × Scanner
  | .peek offset => (.glance (s.peek offset), s)
  | .advance => (.character s.advance.1, s.advance.2)
  | .skipBlanks => (.done, s.skipBlanks)
  | .skipLine => (.done, s.skipLine)
  | .readName => (.text s.readName.1, s.readName.2)
  | .readString => (.text s.readString.1, s.readString.2)
  | .readNumber => (.number s.readNumber.1, s.readNumber.2)
  | .reset => (.done, s.reset)
  | .addToken token => (.done, s.addToken token)
  | .tokenize => (.tokens s.tokenize.1, s.tokenize.2)

/-- The scanner after calls. -/
def run (s : Scanner) (calls : List Call) : Scanner :=
  calls.foldl (fun s call => (s.perform call).2) s

/-- Whether a call starts again from the start of the text. -/
def Call.rewinds : Call → Bool
  | reset => true
  | tokenize => true
  | _ => false

/-- **What a call can do**: it goes ahead, from where the scanner stands or from the start. -/
theorem perform_ahead (s : Scanner) (call : Call) :
    (if call.rewinds then s.reset else s).Ahead (s.perform call).2 := by
  cases call with
  | peek offset => exact .refl
  | advance => exact .advance .refl
  | skipBlanks => exact ahead_skipBlanks s
  | skipLine => exact ahead_readRun _ s
  | readName => exact ahead_readRun _ s
  | readString => exact ahead_readString s
  | readNumber => exact ahead_readRun _ s
  | reset => exact .refl
  | addToken token => exact .addToken .refl token
  | tokenize => exact ahead_tokenize s

theorem source_perform (s : Scanner) (call : Call) : (s.perform call).2.source = s.source := by
  rw [(perform_ahead s call).source_eq]
  split <;> rfl

/-- Every call leaves a scanner that knows its place. -/
theorem Anchored.perform (h : s.Anchored) (call : Call) : (s.perform call).2.Anchored := by
  refine Anchored.ahead ?_ (perform_ahead s call)
  split
  · exact anchored_reset s
  · exact h

theorem source_run (s : Scanner) (calls : List Call) : (s.run calls).source = s.source := by
  induction calls generalizing s with
  | nil => rfl
  | cons call calls ih => exact (ih _).trans (source_perform s call)

/-- Calls one after the other leave a scanner that knows its place. -/
theorem Anchored.run (h : s.Anchored) (calls : List Call) : (s.run calls).Anchored := by
  induction calls generalizing s with
  | nil => exact h
  | cons call calls ih => exact ih (h.perform call)

end Scanner

open Scanner in
/-- **A scanner knows its place, whatever it is called for.** Let any operations be called on a
scanner, in any order, whether they answer or fail. Then it stands within its text. Its line is one
more than the line breaks before it, and its column one more than the characters since the last of
them. And no call takes it back but a reset or a new scan. -/
theorem scanner_knows_its_place (source : String) (calls : List Call) (s : Scanner)
    (hs : (ofSource source).run calls = s) :
    s.source = source.toList ∧ s.pos ≤ source.toList.length ∧
    s.place.line = 1 + (source.toList.take s.pos).count '\n' ∧
    s.place.column = 1 + ((source.toList.take s.pos).rtakeWhile (· ≠ '\n')).length ∧
    ∀ call : Call, call.rewinds = false → s.pos ≤ (s.perform call).2.pos := by
  have hsource : s.source = source.toList := by
    rw [← hs]
    exact source_run _ calls
  have hanchored : s.Anchored := by
    rw [← hs]
    exact (anchored_reset (ofSource source)).run calls
  rw [← hsource]
  refine ⟨rfl, hanchored.pos_le, congrArg Position.line hanchored.place_eq,
    congrArg Position.column hanchored.place_eq, fun call hcall => ?_⟩
  have hahead := perform_ahead s call
  rw [hcall] at hahead
  exact hahead.pos_le

/-- A text with a string over two lines, and a character in the end that starts nothing. -/
def patchySource : String := "n\n..\"p\nq\" @"

open Scanner in
/-- Calls that come as far as the end of the string. Three of them fail: the scan, the look at a
character before the start, and the reading of two points as a number. -/
def patchyCalls : List Call :=
  [.tokenize, .reset, .readName, .peek (-20), .skipBlanks, .readNumber, .readString]

open Scanner in
/-- The scanner is in the third line then, and reads on from there. -/
theorem patchyCalls_know_their_place :
    ((ofSource patchySource).perform .tokenize).1.isError = true ∧
    (((ofSource patchySource).run (patchyCalls.take 3)).perform (.peek (-20))).1.isError = true ∧
    (((ofSource patchySource).run (patchyCalls.take 5)).perform .readNumber).1.isError = true ∧
    ((ofSource patchySource).run patchyCalls).place.line = 3 ∧
    ((ofSource patchySource).run patchyCalls).place.column = 3 ∧
    9 ≤ (((ofSource patchySource).run patchyCalls).perform .skipBlanks).2.pos := by
  have hpos : ((ofSource patchySource).run patchyCalls).pos = 9 := rfl
  have hscan : ((ofSource patchySource).perform .tokenize).1.isError = true := by
    have hstop : (Lexer.scan {} patchySource.toList).2.rest = ['@'] := by cbv
    show (Reply.tokens (Lexer.finish (Lexer.scan {} patchySource.toList).1
      (Lexer.scan {} patchySource.toList).2)).isError = true
    unfold Lexer.finish
    rw [hstop]
    rfl
  obtain ⟨-, -, hline, hcolumn, hahead⟩ :=
    scanner_knows_its_place patchySource patchyCalls _ rfl
  rw [hpos] at hline hcolumn
  refine ⟨hscan, rfl, rfl, hline, hcolumn, ?_⟩
  rw [← hpos]
  exact hahead .skipBlanks rfl

end CallScript
