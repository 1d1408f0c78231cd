import CallScript.Proofs.LexerCorrectness

/-!
# Words in front of another text

Whether a text is a gap or a lexeme depends on what stands behind it, but only on the very next
character. A comment asks for a line break there, a name or a number for a character that does not
go on with it. A string literal asks for nothing once a quote has closed it. One that nothing closes
lasts up to the end of the text, and so it asks that there be no next character at all.

So the text behind words may be replaced (`Sequence.replace`) by one that starts alike, or by one
that starts with a character that goes on with no name and no number (`Replaces`); only behind a
string literal that nothing closes nothing may be put (`EndsOpen`).
-/

namespace CallScript.LexicalGrammar

/-! ## String literals that nothing closes -/

/-- **The text of a string literal that nothing closes**: an opening quote and the inside of a
literal, which holds no quote but escaped ones, and at most a backslash that escapes nothing. -/
def Unclosed (text : List Char) : Prop :=
  ∃ inside value, Quoted inside value ∧ (text = '"' :: inside ∨ text = '"' :: inside ++ ['\\'])

/-- The inside of a literal with a closing quote is not the inside of another: the quote would have
to be escaped in one and not in the other. -/
theorem Quoted.append_quote_ne {inside inside' value value' : List Char} (h : Quoted inside value)
    (h' : Quoted inside' value') : inside ++ ['"'] ≠ inside' := by
  induction h generalizing inside' value' with
  | nil =>
    cases h' with
    | nil => simp
    | plain hquote => simp [hquote.symm]
    | escaped => simp
  | plain hquote hescape _ ih =>
    cases h' with
    | nil => simp
    | plain _ _ h' => simpa using fun _ => ih h'
    | escaped => simp [hescape]
  | escaped _ ih =>
    cases h' with
    | nil => simp
    | plain _ hescape => simp [hescape.symm]
    | escaped h' => simpa using fun _ => ih h'

/-- **A string literal that a quote closes** is not one that nothing closes. -/
theorem not_unclosed_of_quoted {inside value : List Char} (h : Quoted inside value) :
    ¬ Unclosed ('"' :: inside ++ ['"']) := by
  rintro ⟨inside', value', h', htext | htext⟩
  · exact h.append_quote_ne h' (List.cons.inj htext).2
  · exact absurd (List.append_inj_right' htext rfl) (by decide)

/-- **The last of some words is a string literal that nothing closes.** -/
def EndsOpen (words : List Word) : Prop :=
  ∃ w ∈ words.getLast?, w.kind = .string ∧ Unclosed w.text

theorem endsOpen_cons_cons {w w' : Word} {words : List Word} :
    EndsOpen (w :: w' :: words) ↔ EndsOpen (w' :: words) := by
  unfold EndsOpen
  rw [List.getLast?_cons_cons]

/-! ## Texts that may be put behind words -/

/-- A text that goes on with no name and no number. -/
structure Separates (rest : List Char) : Prop where
  name : Bounded Lexer.isNameChar rest
  number : Bounded Lexer.isNumberChar rest

theorem separates_cons {c : Char} (hname : Lexer.isNameChar c = false) (hdot : c ≠ '.')
    (rest : List Char) : Separates (c :: rest) := by
  have hdigit : Binary64.isBasicDigit c = false := (Bool.or_eq_false_iff.mp hname).2
  constructor
  · rintro x ⟨⟩
    exact hname
  · rintro x ⟨⟩
    simp [Lexer.isNumberChar, hdigit, hdot]

/-- **What may be put behind words in the place of a text**: a text that starts alike, or one that
goes on with no name and no number. -/
def Replaces (rest' rest : List Char) : Prop := rest'.head? = rest.head? ∨ Separates rest'

theorem Replaces.of_append {start : List Char} (hstart : start ≠ []) (rest' rest : List Char) :
    Replaces (start ++ rest') (start ++ rest) := by
  cases start with
  | nil => exact absurd rfl hstart
  | cons c start => exact .inl rfl

theorem Bounded.congr {inClass : Char → Bool} {rest rest' : List Char} (h : Bounded inClass rest)
    (hhead : rest'.head? = rest.head?) : Bounded inClass rest' := by
  unfold Bounded
  rw [hhead]
  exact h

/-! ## Replacing the text behind -/

theorem Gap.congr {w rest rest' : List Char} (h : Gap w rest) (hhead : rest'.head? = rest.head?) :
    Gap w rest' := by
  induction h with
  | nil rest => exact .nil rest'
  | blank hc _ ih => exact .blank hc (ih hhead)
  | comment hbody hend _ ih =>
    refine .comment hbody (hend.congr ?_) (ih hhead)
    rw [List.head?_append, List.head?_append, hhead]

/-- **A lexeme stays one** in front of what may be put in the place of the text behind it. -/
theorem Lexeme.replace {text rest rest' : List Char} {kind : TokenKind} {value : Scalar}
    (h : Lexeme text kind value rest) (hrest : Replaces rest' rest)
    (hclosed : rest = [] → rest' = [] ∨ ¬ (kind = .string ∧ Unclosed text)) :
    Lexeme text kind value rest' := by
  have hname : Bounded Lexer.isNameChar rest → Bounded Lexer.isNameChar rest' :=
    fun hend => hrest.elim hend.congr (·.name)
  have hnumber : Bounded Lexer.isNumberChar rest → Bounded Lexer.isNumberChar rest' :=
    fun hend => hrest.elim hend.congr (·.number)
  cases h with
  | keyword hend => exact .keyword (hname hend)
  | name hc hrun hend hother => exact .name hc hrun (hname hend) hother
  | number hc hrun hend hx => exact .number hc hrun (hnumber hend) hx
  | @string inside value close rest hquoted hclose =>
    cases hclose with
    | quote => exact .string hquoted (.quote _)
    | endOfText =>
      obtain rfl | hclosed := hclosed rfl
      · exact .string hquoted .endOfText
      · exact absurd ⟨rfl, inside, value, hquoted, .inl (List.append_nil _)⟩ hclosed
    | loneBackslash =>
      obtain rfl | hclosed := hclosed rfl
      · exact .string hquoted .loneBackslash
      · exact absurd ⟨rfl, inside, value, hquoted, .inr rfl⟩ hclosed
  | dot => exact .dot _
  | leftParen => exact .leftParen _
  | rightParen => exact .rightParen _
  | semicolon => exact .semicolon _

/-- **Words stay words** in front of what may be put in the place of the text behind them. Only the
last word sees the change: what stands behind any other starts with the word after it. -/
theorem Sequence.replace {words : List Word} {rest rest' : List Char} (h : Sequence words rest)
    (hrest : Replaces rest' rest) (hclosed : rest = [] → rest' = [] ∨ ¬ EndsOpen words) :
    Sequence words rest' := by
  induction words with
  | nil => trivial
  | cons w words ih =>
    obtain ⟨hgap, hlexeme, hwords⟩ := h
    have hhead : (w.text ++ (written words ++ rest')).head?
        = (w.text ++ (written words ++ rest)).head? := by
      rw [List.head?_append_of_ne_nil _ hlexeme.text_ne_nil,
        List.head?_append_of_ne_nil _ hlexeme.text_ne_nil]
    cases words with
    | nil =>
      refine ⟨hgap.congr hhead, hlexeme.replace hrest fun hnil => ?_, trivial⟩
      exact (hclosed hnil).imp_right fun hopen hw => hopen ⟨w, rfl, hw⟩
    | cons w' words =>
      have hwritten : written (w' :: words) ≠ [] := fun hnil => by
        rw [written_cons, List.append_eq_nil_iff, List.append_eq_nil_iff] at hnil
        exact hwords.2.1.text_ne_nil hnil.2.1
      refine ⟨hgap.congr hhead, hlexeme.replace (.of_append hwritten rest' rest) fun hnil => ?_,
        ih hwords fun hnil => (hclosed hnil).imp_right (mt endsOpen_cons_cons.mpr)⟩
      exact absurd (List.append_eq_nil_iff.mp hnil).1 hwritten

end CallScript.LexicalGrammar
