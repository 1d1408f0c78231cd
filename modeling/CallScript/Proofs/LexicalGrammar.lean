import CallScript.Token.Lexer
import Mathlib.Data.List.DropRight
import Mathlib.Data.List.Permutation
import Mathlib.Data.List.TakeWhile

/-!
# The lexical grammar

A source text is words and a last gap. A word is a gap, which says nothing, and a lexeme, which is
the text of one token. What a lexeme is depends on the text behind it: a name or a number takes
every character that could still belong to it, and a string that nothing closes takes all that is
left. So a lexeme is a relation between its text, the token it stands for, and what follows, and the
words of a text are a sequence in which each is checked against the words behind it.

`Factorisation s` holds the words of `s` together with the proof that they are such a sequence.
Tokens are placed by counting characters in the text before their lexeme (`placeAfter`), not by
carrying a place along; that the two agree is `placeAfter_append`.

Where a text has no factorisation it breaks off somewhere: words and a gap reach up to a character
at which no gap goes on and no lexeme starts (`BreaksAt`). Nothing here mentions the lexer.
-/

namespace CallScript

/-! ## Places -/

/-- The place that a text before it leaves for the next character: its line is one more than the
line breaks passed, its column one more than the characters since the last of them. -/
def placeAfter (before : List Char) : Position where
  line := 1 + before.count '\n'
  column := 1 + (before.rtakeWhile (· ≠ '\n')).length

theorem Position.after_append (p : Position) (a b : List Char) :
    p.after (a ++ b) = (p.after a).after b :=
  List.foldl_append

theorem placeAfter_concat (before : List Char) (c : Char) :
    placeAfter (before ++ [c]) = (placeAfter before).next c := by
  unfold placeAfter Position.next
  by_cases hc : c = '\n'
  · rw [if_pos hc, List.rtakeWhile_concat_neg _ _ _ (by simp [hc])]
    simp [hc, Nat.add_assoc]
  · rw [if_neg hc, List.rtakeWhile_concat_pos _ _ _ (by simp [hc])]
    simp [hc, Nat.add_assoc]

/-- **Counting characters and passing them one by one lead to the same place.** -/
theorem placeAfter_append (before text : List Char) :
    placeAfter (before ++ text) = (placeAfter before).after text := by
  induction text generalizing before with
  | nil => rw [List.append_nil]; rfl
  | cons c text ih =>
    rw [List.append_cons, ih, placeAfter_concat]
    rfl

namespace LexicalGrammar

/-! ## Gaps and lexemes -/

/-- No character of a class is ahead, so that a run of the class ends here. -/
def Bounded (inClass : Char → Bool) (rest : List Char) : Prop :=
  ∀ c ∈ rest.head?, inClass c = false

/-- **A gap in front of a text**: blanks, and comments each of which lasts up to a line break or the
end of the text. -/
inductive Gap : List Char → List Char → Prop where
  | nil (rest : List Char) : Gap [] rest
  | blank {c : Char} {more rest : List Char} (hc : Text.isBlank c = true) (h : Gap more rest) :
      Gap (c :: more) rest
  | comment {body more rest : List Char} (hbody : ∀ c ∈ body, c ≠ '\n')
      (hend : Bounded (· ≠ '\n') (more ++ rest)) (h : Gap more rest) :
      Gap ('/' :: '/' :: body ++ more) rest

/-- The inside of a string literal as it is written, and its value: a backslash is dropped and the
character after it kept, whatever it is. -/
inductive Quoted : List Char → List Char → Prop where
  | nil : Quoted [] []
  | plain {c : Char} {written value : List Char} (hquote : c ≠ '"') (hescape : c ≠ '\\')
      (h : Quoted written value) : Quoted (c :: written) (c :: value)
  | escaped {c : Char} {written value : List Char} (h : Quoted written value) :
      Quoted ('\\' :: c :: written) (c :: value)

/-- How a string literal ends in front of a text: with a quote, or with the text itself, which may
still hold a backslash that escapes nothing. -/
inductive Closing : List Char → List Char → Prop where
  | quote (rest : List Char) : Closing ['"'] rest
  | endOfText : Closing [] []
  | loneBackslash : Closing ['\\'] []

/-- **A lexeme in front of a text**, with the kind and the value of its token. -/
inductive Lexeme : List Char → TokenKind → Scalar → List Char → Prop where
  | keyword {rest : List Char} (hend : Bounded Lexer.isNameChar rest) :
      Lexeme ['c', 'o', 'r', 'e'] .core (.text "core") rest
  | name {c : Char} {run rest : List Char} (hc : Lexer.isNameStart c = true)
      (hrun : ∀ x ∈ run, Lexer.isNameChar x = true) (hend : Bounded Lexer.isNameChar rest)
      (hother : c :: run ≠ ['c', 'o', 'r', 'e']) :
      Lexeme (c :: run) .identifier (.text (String.ofList (c :: run))) rest
  | number {c : Char} {run rest : List Char} {x : Binary64} (hc : Binary64.isBasicDigit c = true)
      (hrun : ∀ x ∈ run, Lexer.isNumberChar x = true) (hend : Bounded Lexer.isNumberChar rest)
      (hx : Binary64.readLiteral (String.ofList (c :: run)) = .ok x) :
      Lexeme (c :: run) .number (.float x) rest
  | string {written value close rest : List Char} (h : Quoted written value)
      (hclose : Closing close rest) :
      Lexeme ('"' :: written ++ close) .string (.text (String.ofList value)) rest
  | dot (rest : List Char) : Lexeme ['.'] .dot .null rest
  | leftParen (rest : List Char) : Lexeme ['('] .leftParen .null rest
  | rightParen (rest : List Char) : Lexeme [')'] .rightParen .null rest
  | semicolon (rest : List Char) : Lexeme [';'] .semicolon .null rest

theorem Lexeme.text_ne_nil {text rest : List Char} {kind : TokenKind} {value : Scalar}
    (h : Lexeme text kind value rest) : text ≠ [] := by
  cases h <;> simp

/-- A lexeme with the gap before it. -/
structure Word where
  gap : List Char
  text : List Char
  kind : TokenKind
  value : Scalar

/-- The text of words. -/
def written (words : List Word) : List Char := words.flatMap fun w => w.gap ++ w.text

@[simp] theorem written_nil : written [] = [] := rfl

@[simp] theorem written_cons (w : Word) (ws : List Word) :
    written (w :: ws) = w.gap ++ (w.text ++ written ws) := by
  simp [written]

/-- **Words in front of a text**: every gap is a gap and every lexeme a lexeme in front of all that
follows it. -/
def Sequence : List Word → List Char → Prop
  | [], _ => True
  | w :: ws, rest =>
    Gap w.gap (w.text ++ (written ws ++ rest)) ∧
      Lexeme w.text w.kind w.value (written ws ++ rest) ∧ Sequence ws rest

/-- The tokens of words that follow a text. -/
def tokensAfter (before : List Char) : List Word → List Token
  | [] => []
  | w :: ws =>
    let place := placeAfter (before ++ w.gap)
    ⟨w.kind, .scalar w.value, .int place.line, .int place.column⟩
      :: tokensAfter (before ++ w.gap ++ w.text) ws

/-- **A text as words and a last gap.** -/
structure Factorisation (s : List Char) where
  words : List Word
  last : List Char
  written_append_last : written words ++ last = s
  sequence : Sequence words last
  gap : Gap last []

/-- The tokens of a factorised text. -/
def Factorisation.tokens {s : List Char} (f : Factorisation s) : List Token :=
  tokensAfter [] f.words

/-- No gap starts a text but the empty one. -/
def GapFree (rest : List Char) : Prop :=
  ∀ text behind, text ++ behind = rest → Gap text behind → text = []

/-- Neither a gap nor a lexeme starts a text. -/
def Barren (rest : List Char) : Prop :=
  GapFree rest ∧
    ∀ text behind kind value, text ++ behind = rest → ¬ Lexeme text kind value behind

/-- **Where a text breaks off**: words and a gap reach up to a character, and nothing starts
there. -/
def BreaksAt (s : List Char) (p : Nat) : Prop :=
  p < s.length ∧ Barren (s.drop p) ∧
    ∃ words gap, written words ++ gap = s.take p ∧ Sequence words (gap ++ s.drop p) ∧
      Gap gap (s.drop p)

/-! ## Gaps join up -/

theorem Gap.of_blanks {w : List Char} (h : ∀ c ∈ w, Text.isBlank c = true) (rest : List Char) :
    Gap w rest := by
  induction w with
  | nil => exact .nil rest
  | cons c w ih =>
    rw [List.forall_mem_cons] at h
    exact .blank h.1 (ih h.2)

theorem Gap.append {w w' rest : List Char} (h : Gap w (w' ++ rest)) (h' : Gap w' rest) :
    Gap (w ++ w') rest := by
  generalize hr : w' ++ rest = r at h
  induction h with
  | nil => exact h'
  | blank hc _ ih => exact .blank hc (ih hr)
  | @comment body more r hbody hend _ ih =>
    rw [← hr, ← List.append_assoc] at hend
    rw [List.append_assoc]
    exact .comment hbody hend (ih hr)

/-! ## Runs end where they must

The longest run of a class is the only one with nothing of the class behind it. -/

theorem Bounded.takeWhile_eq_nil {inClass : Char → Bool} {rest : List Char}
    (h : Bounded inClass rest) : rest.takeWhile inClass = [] := by
  cases rest with
  | nil => rfl
  | cons c rest => exact List.takeWhile_cons_of_neg (by simp [h c rfl])

theorem takeWhile_run {inClass : Char → Bool} {run rest : List Char}
    (hrun : ∀ c ∈ run, inClass c = true) (hend : Bounded inClass rest) :
    (run ++ rest).takeWhile inClass = run := by
  rw [List.takeWhile_append_of_pos hrun, hend.takeWhile_eq_nil, List.append_nil]

theorem dropWhile_run {inClass : Char → Bool} {run rest : List Char}
    (hrun : ∀ c ∈ run, inClass c = true) (hend : Bounded inClass rest) :
    (run ++ rest).dropWhile inClass = rest := by
  have h := List.takeWhile_append_dropWhile (p := inClass) (l := run ++ rest)
  rw [takeWhile_run hrun hend] at h
  exact List.append_cancel_left h

theorem bounded_dropWhile (inClass : Char → Bool) (cs : List Char) :
    Bounded inClass (cs.dropWhile inClass) := by
  intro c hc
  have h := List.head?_dropWhile_not inClass cs
  rw [Option.mem_def.mp hc] at h
  exact h

theorem run_eq_of_append {inClass : Char → Bool} {run run' rest rest' : List Char}
    (hrun : ∀ c ∈ run, inClass c = true) (hrun' : ∀ c ∈ run', inClass c = true)
    (hend : Bounded inClass rest) (hend' : Bounded inClass rest')
    (h : run ++ rest = run' ++ rest') : run = run' := by
  rw [← takeWhile_run hrun hend, h, takeWhile_run hrun' hend']

/-- **Gaps that end where no gap goes on are determined by the text.** -/
theorem Gap.eq_of_append {w w' rest rest' : List Char} (h : Gap w rest) (h' : Gap w' rest')
    (hfree : GapFree rest) (hfree' : GapFree rest') (heq : w ++ rest = w' ++ rest') : w = w' := by
  induction h generalizing w' with
  | nil rest => exact (hfree w' rest' heq.symm h').symm
  | @blank c more rest hc hmore ih =>
    cases h' with
    -- the other text starts with this gap, and no gap starts it
    | nil => exact hfree' (c :: more) rest heq (.blank hc hmore)
    | blank hc' hmore' =>
      obtain ⟨rfl, htail⟩ := List.cons.inj heq
      rw [ih hmore' hfree htail]
    | comment =>
      obtain ⟨rfl, -⟩ := List.cons.inj heq
      exact absurd hc (by decide)
  | @comment body more rest hbody hend hmore ih =>
    cases h' with
    | nil => exact hfree' _ rest heq (.comment hbody hend hmore)
    | blank hc' =>
      obtain ⟨rfl, -⟩ := List.cons.inj heq
      exact absurd hc' (by decide)
    | @comment body' more' _ hbody' hend' hmore' =>
      -- both comments last up to the same line break, or to the end
      have htail : body ++ (more ++ rest) = body' ++ (more' ++ rest') := by simpa using heq
      have hsame : body = body' :=
        run_eq_of_append (by simpa using hbody) (by simpa using hbody') hend hend' htail
      subst hsame
      rw [ih hmore' hfree (List.append_cancel_left htail)]

end LexicalGrammar

end CallScript
