import CallScript.Proofs.LexicalContext
import CallScript.Proofs.ParserCorrectness
import CallScript.Proofs.Relocation

/-!
# One source text after another

Two source texts with a line break between them are read as one after the other, provided the first
is a program. Three things make it so.

A line break ends whatever could go on: a name, a number and a comment. Only a string literal that
nothing closes goes on across it. So words stay words when a line break and more text follow them,
unless the last of them is such a literal (`Sequence.extend`); and the last token of a program is a
semicolon (`Program.kind_of_mem_getLast?`).

Behind the line break the lexer starts over, at the first column of a later line. The tokens there
are those of the second text alone, moved down (`tokenize_append`). A character that starts no token
is followed by the rest of its line whatever comes behind the line break, so a text that breaks off
there breaks off at the same place (`BreaksAt.extend`).

The reader of programs passes the statements of the first text, whatever tokens follow, and goes on
with the tokens of the second. Where the second text is not a program the error is its own, moved
down (`parseSource_append`).
-/

namespace CallScript

open Grammar LexicalGrammar

/-! ## Words that a line break follows -/

namespace LexicalGrammar

theorem Bounded.extend {inClass : Char → Bool} {rest : List Char} (h : Bounded inClass rest)
    (hbreak : inClass '\n' = false) (more : List Char) :
    Bounded inClass (rest ++ '\n' :: more) := by
  cases rest with
  | nil =>
    rintro c ⟨⟩
    exact hbreak
  | cons c rest => exact h

theorem Gap.extend {w rest : List Char} (h : Gap w rest) (more : List Char) :
    Gap w (rest ++ '\n' :: more) := by
  induction h with
  | nil rest => exact .nil _
  | blank hc _ ih => exact .blank hc ih
  | comment hbody hend _ ih =>
    refine .comment hbody ?_ ih
    rw [← List.append_assoc]
    exact hend.extend (by decide) more

theorem separates_lineBreak (more : List Char) : Separates ('\n' :: more) :=
  separates_cons (by decide) (by decide) more

/-- **Words stay words when a line break and more text follow**, unless the last is a string literal
that the end of the text ends. -/
theorem Sequence.extend {words : List Word} {rest : List Char} (h : Sequence words rest)
    (hclosed : rest = [] → ¬ EndsOpen words) (more : List Char) :
    Sequence words (rest ++ '\n' :: more) := by
  refine h.replace ?_ fun hnil => .inr (hclosed hnil)
  cases rest with
  | nil => exact .inr (separates_lineBreak more)
  | cons c rest => exact .inl rfl

/-- Where nothing starts, nothing starts when a line break and more text follow. -/
theorem Barren.extend {rest : List Char} (h : Barren rest) (hne : rest ≠ []) (more : List Char) :
    Barren (rest ++ '\n' :: more) := by
  rw [Lexer.barren_iff] at h ⊢
  cases rest with
  | nil => exact absurd rfl hne
  | cons c cs =>
    -- the character behind the first decides only whether a slash starts a comment
    have hslash : (cs ++ '\n' :: more).head? = some '/' ↔ cs.head? = some '/' := by
      cases cs <;> simp
    rw [List.cons_append]
    rw [Lexer.readPiece_eq_none_iff] at h ⊢
    rwa [hslash]

/-- **A text that breaks off breaks off at the same character** when a line break and more text
follow. -/
theorem BreaksAt.extend {s : List Char} {p : Nat} (h : BreaksAt s p) (more : List Char) :
    BreaksAt (s ++ '\n' :: more) p := by
  obtain ⟨hp, hbarren, words, gap, hwritten, hwords, hgap⟩ := h
  have hne : s.drop p ≠ [] := by
    rw [ne_eq, List.drop_eq_nil_iff]
    omega
  have hnot : gap ++ s.drop p ≠ [] := fun hnil => hne (List.append_eq_nil_iff.mp hnil).2
  unfold BreaksAt
  rw [List.take_append_of_le_length hp.le, List.drop_append_of_le_length hp.le, List.length_append]
  refine ⟨by omega, hbarren.extend hne more, words, gap, hwritten, ?_, hgap.extend more⟩
  rw [← List.append_assoc]
  exact hwords.extend (fun hnil => absurd hnil hnot) more

/-- The kind and the value of a word. -/
def Word.lexeme (w : Word) : TokenKind × Value := (w.kind, .scalar w.value)

theorem map_lexeme_tokensAfter (before : List Char) (words : List Word) :
    (tokensAfter before words).map Token.lexeme = words.map Word.lexeme := by
  induction words generalizing before with
  | nil => rfl
  | cons w words ih =>
    rw [tokensAfter, List.map_cons, List.map_cons, ih]
    rfl

/-- A token that comes from a lexeme. -/
def FromLexeme (t : Token) : Prop :=
  ∃ text behind value, Lexeme text t.kind value behind ∧ t.value = .scalar value

theorem fromLexeme_of_mem_tokensAfter {words : List Word} {rest : List Char}
    (h : Sequence words rest) (before : List Char) {t : Token}
    (ht : t ∈ tokensAfter before words) : FromLexeme t := by
  induction words generalizing before with
  | nil => cases ht
  | cons w words ih =>
    obtain ⟨-, hlexeme, hwords⟩ := h
    cases ht with
    | head => exact ⟨_, _, _, hlexeme, rfl⟩
    | tail _ ht => exact ih hwords _ ht

theorem Lexeme.kind_ne_end {text rest : List Char} {kind : TokenKind} {value : Scalar}
    (h : Lexeme text kind value rest) : kind ≠ .endOfInput := by
  cases h <;> decide

theorem FromLexeme.not_isEnd {t : Token} (h : FromLexeme t) : isEnd t = false := by
  obtain ⟨text, behind, value, hlexeme, -⟩ := h
  exact decide_eq_false hlexeme.kind_ne_end

/-- A token that stands behind a text. -/
def StandsAfter (before : List Char) (t : Token) : Prop :=
  t.line = .int (placeAfter before).line ∧ t.column = .int (placeAfter before).column

/-- The tokens of words stand behind the start of the text that the words take. -/
theorem exists_standsAfter_of_mem_tokensAfter {before : List Char} {words : List Word} {t : Token}
    (ht : t ∈ tokensAfter before words) :
    ∃ front, front <+: before ++ written words ∧ StandsAfter front t := by
  induction words generalizing before with
  | nil => cases ht
  | cons w words ih =>
    cases ht with
    | head =>
      refine ⟨before ++ w.gap, ?_, rfl, rfl⟩
      rw [written_cons, ← List.append_assoc]
      exact List.prefix_append _ _
    | tail _ ht =>
      obtain ⟨front, hfront, h⟩ := ih ht
      refine ⟨front, ?_, h⟩
      rwa [written_cons, ← List.append_assoc, ← List.append_assoc]

end LexicalGrammar

/-! ## The tokens of a program -/

namespace Grammar

theorem Statement.exists_semicolon (s : Statement) :
    ∃ front semicolon, s.tokens = front ++ [semicolon] ∧ semicolon.kind = .semicolon := by
  cases s with
  | empty semicolon => exact ⟨[], semicolon.val, rfl, semicolon.property⟩
  | coreCall core dot method tail =>
    refine ⟨core.val :: dot.val :: method.val :: tail.opening.val
      :: (tail.arguments.tokens ++ [tail.closing.val]), tail.semicolon.val, ?_,
      tail.semicolon.property⟩
    simp [Statement.tokens, Tail.tokens]
  | directCall method tail =>
    refine ⟨method.val :: tail.opening.val :: (tail.arguments.tokens ++ [tail.closing.val]),
      tail.semicolon.val, ?_, tail.semicolon.property⟩
    simp [Statement.tokens, Tail.tokens]
  | objectCall object dot method tail =>
    refine ⟨object.val :: dot.val :: method.val :: tail.opening.val
      :: (tail.arguments.tokens ++ [tail.closing.val]), tail.semicolon.val, ?_,
      tail.semicolon.property⟩
    simp [Statement.tokens, Tail.tokens]

/-- **A program ends with a semicolon**, if it has tokens at all. -/
theorem Program.kind_of_mem_getLast? (d : Program) {t : Token} (ht : t ∈ d.tokens.getLast?) :
    t.kind = .semicolon := by
  obtain rfl | ⟨front, s, rfl⟩ := d.eq_nil_or_concat'
  · cases ht
  · obtain ⟨tokens, semicolon, htokens, hkind⟩ := s.exists_semicolon
    have hlast : (Program.tokens (front ++ [s])).getLast? = some semicolon := by
      simp [Program.tokens, htokens]
    rw [hlast] at ht
    cases ht
    exact hkind

end Grammar

/-! ## Reading the tokens -/

theorem placeAfter_lineBreak (before : List Char) :
    placeAfter (before ++ ['\n']) = Position.movedDown (1 + before.count '\n') {} := by
  rw [placeAfter_concat]
  simp [placeAfter, Position.next, Position.movedDown, Nat.add_comm]

/-- **Behind words that a line break follows the lexer starts over.** -/
theorem scan_lineBreak {a : List Char} (f : Factorisation a) (hclosed : ¬ EndsOpen f.words)
    (b : List Char) :
    Lexer.scan {} (a ++ '\n' :: b)
      = (f.tokens ++ (Lexer.scan {} b).1.map (Token.movedDown (1 + a.count '\n')),
        ⟨(Lexer.scan {} b).2.place.movedDown (1 + a.count '\n'), (Lexer.scan {} b).2.rest⟩) := by
  have htext : a ++ '\n' :: b = written f.words ++ (f.last ++ '\n' :: b) := by
    rw [← List.append_assoc, f.written_append_last]
  have hgap : Gap (f.last ++ ['\n']) b :=
    Gap.append (f.gap.extend b) (.blank (by decide) (.nil b))
  have hplace : (placeAfter ([] ++ written f.words)).after (f.last ++ ['\n'])
      = Position.movedDown (1 + a.count '\n') {} := by
    rw [← placeAfter_append, List.nil_append, ← List.append_assoc, f.written_append_last,
      placeAfter_lineBreak]
  have hscan := Lexer.scan_words (f.sequence.extend (fun _ => hclosed) b) []
  have hrest := Lexer.scan_gap hgap (placeAfter ([] ++ written f.words))
  rw [List.append_assoc, List.singleton_append] at hrest
  rw [htext]
  refine hscan.trans ?_
  rw [hrest, hplace, Lexer.scan_movedDown]
  rfl

theorem toList_lineBreak (a b : String) :
    (a ++ "\n" ++ b).toList = a.toList ++ '\n' :: b.toList := by
  simp

theorem tokenize_append {a : String} (f : Factorisation a.toList) (hclosed : ¬ EndsOpen f.words)
    (b : String) :
    tokenize (a ++ "\n" ++ b)
      = match tokenize b with
        | .ok ts => .ok (f.tokens ++ ts.map (Token.movedDown (1 + a.toList.count '\n')))
        | .error e => .error (e.movedDown (1 + a.toList.count '\n')) := by
  unfold tokenize
  rw [toList_lineBreak, scan_lineBreak f hclosed]
  exact Lexer.finish_movedDown _ _ _

/-- **A text whose tokens are read, a line break and a second text have the tokens of both.** Let
the first text not end inside a string literal. Then behind its tokens come those of the second
text, as many lines further down as the first text and the line break take, and if the second text
has no tokens, the error is its own, moved down likewise. If already the first text has no tokens,
the error is that of the first text, whatever follows. -/
theorem tokenize_lineBreak (a b : String) :
    (∀ ts, tokenize a = .ok ts → (∀ f : Factorisation a.toList, ¬ EndsOpen f.words) →
      tokenize (a ++ "\n" ++ b)
        = match tokenize b with
          | .ok us => .ok (ts.dropLast ++ us.map (Token.movedDown (1 + a.toList.count '\n')))
          | .error e => .error (e.movedDown (1 + a.toList.count '\n'))) ∧
    ∀ e, tokenize a = .error e → tokenize (a ++ "\n" ++ b) = .error e := by
  refine ⟨fun ts ha hclosed => ?_, fun e ha => ?_⟩
  · obtain ⟨f, rfl⟩ := exists_factorisation_of_tokenize ha
    rw [List.dropLast_concat]
    exact tokenize_append f (hclosed f) b
  · obtain ⟨⟨f⟩⟩ | ⟨p, hp⟩ := factorisation_or_breaksAt a.toList
    · rw [tokenize_of_factorisation f] at ha
      exact absurd ha (by simp)
    · have hwhole : BreaksAt (a ++ "\n" ++ b).toList p := by
        rw [toList_lineBreak]
        exact hp.extend b.toList
      -- the same character at the same place, since both stand before the line break
      obtain ⟨c, hc, herror⟩ := tokenize_of_breaksAt hp
      obtain ⟨c', hc', herror'⟩ := tokenize_of_breaksAt hwhole
      rw [toList_lineBreak, List.getElem?_append_left hp.1, hc] at hc'
      obtain rfl := Option.some.inj hc'
      rw [herror', toList_lineBreak, List.take_append_of_le_length hp.1.le, ← herror, ha]

/-- A string literal over two lines that ends with an escaped quote. -/
def quotedLines : String := "\"a\n\\\"\""

/-- A character that starts no token behind a string literal, and the other way round. -/
theorem tokenize_quotedLines_lineBreak :
    tokenize quotedLines
      = .ok [⟨.string, .text "a\n\"", .int 1, .int 1⟩, ⟨.endOfInput, .null, .int 2, .int 4⟩] ∧
    (∀ f : Factorisation quotedLines.toList, ¬ EndsOpen f.words) ∧
    tokenize (quotedLines ++ "\n" ++ "@")
      = .error (Lexer.unexpectedCharacter "@" (.int 3) (.int 1)) ∧
    tokenize ("@" ++ "\n" ++ quotedLines)
      = .error (Lexer.unexpectedCharacter "@" (.int 1) (.int 1)) := by
  have hquoted : Quoted ['a', '\n', '\\', '"'] ['a', '\n', '"'] :=
    .plain (by decide) (by decide) (.plain (by decide) (by decide) (.escaped .nil))
  let word : Word := ⟨[], '"' :: ['a', '\n', '\\', '"'] ++ ['"'], .string, .text "a\n\""⟩
  have hlexeme : Lexeme word.text .string (.text "a\n\"") [] := .string hquoted (.quote [])
  let f : Factorisation quotedLines.toList := ⟨[word], [], rfl, ⟨.nil _, hlexeme, trivial⟩, .nil _⟩
  have hclosed : ∀ g : Factorisation quotedLines.toList, ¬ EndsOpen g.words := by
    rintro g ⟨w, hw, -, hunclosed⟩
    rw [g.eq f] at hw
    obtain rfl := Option.some.inj hw
    exact not_unclosed_of_quoted hquoted hunclosed
  have hquotes : tokenize quotedLines
      = .ok [⟨.string, .text "a\n\"", .int 1, .int 1⟩, ⟨.endOfInput, .null, .int 2, .int 4⟩] :=
    tokenize_of_factorisation f
  have hat : tokenize "@"
      = .error (Lexer.unexpectedCharacter "@" (.int 1) (.int 1)) := by
    have hnone : Lexer.readPiece "@".toList = none := rfl
    unfold tokenize
    rw [Lexer.scan_of_none hnone]
    rfl
  refine ⟨hquotes, hclosed, ?_, (tokenize_lineBreak "@" quotedLines).2 _ hat⟩
  rw [(tokenize_lineBreak quotedLines "@").1 _ hquotes hclosed, hat]
  rfl

/-! ## Reading the tree -/

theorem parseSource_of_tokens {source : String} {d : Program} (stop : TokenOf .endOfInput)
    (h : tokenize source = .ok (d.tokens ++ [stop.val])) : parseSource source = .ok d.node := by
  unfold parseSource
  rw [h]
  exact parse_eq_ok_iff.mpr ⟨d, (d.derives_iff _).mpr ⟨stop, [], rfl⟩, rfl⟩

/-- What a source text that is read into a tree consists of: words whose tokens are those of a
program. -/
theorem exists_program_of_parseSource {source : String} {node : Node}
    (h : parseSource source = .ok node) :
    ∃ (f : Factorisation source.toList) (d : Program), f.tokens = d.tokens ∧ node = d.node := by
  unfold parseSource at h
  cases htokens : tokenize source with
  | error e => rw [htokens] at h; cases h
  | ok ts =>
    rw [htokens] at h
    obtain ⟨f, rfl⟩ := exists_factorisation_of_tokenize htokens
    obtain ⟨d, hd, rfl⟩ := parse_eq_ok_iff.mp h
    refine ⟨f, d, ?_, rfl⟩
    have hbefore : ∀ t ∈ f.tokens, (!isEnd t) = true := fun t ht => by
      rw [(fromLexeme_of_mem_tokensAfter f.sequence [] ht).not_isEnd]
      rfl
    rw [hd.2, beforeEnd, List.takeWhile_append_of_pos hbefore]
    simp [isEnd, Lexer.endToken]

theorem not_endsOpen_of_tokens {s : List Char} {f : Factorisation s} {d : Program}
    (h : f.tokens = d.tokens) : ¬ EndsOpen f.words := by
  rintro ⟨w, hw, hstring, -⟩
  have hlast : d.tokens.getLast?.map Token.lexeme = some w.lexeme := by
    rw [← h, ← List.getLast?_map, Factorisation.tokens, map_lexeme_tokensAfter, List.getLast?_map,
      Option.mem_def.mp hw, Option.map_some]
  obtain ⟨t, ht, hlexeme⟩ := Option.map_eq_some_iff.mp hlast
  have hkind : t.kind = w.kind := congrArg Prod.fst hlexeme
  rw [d.kind_of_mem_getLast? ht, hstring] at hkind
  exact absurd hkind (by decide)

theorem parse_append (d : Program) (n : Nat) (ts : List Token) :
    parse (d.tokens ++ ts.map (Token.movedDown n))
      = match parse ts with
        | .ok node => .ok ⟨.program, .null, d.nodes ++ node.children⟩
        | .error e => .error (e.movedDown n) := by
  have hstatements : Parser.statements (ts.map (Token.movedDown n))
      = (Parser.statements ts).relocated (.down n) :=
    Parser.replies_statements.relocated (m := .down n) ts
  unfold parse Parser.program Parser.bind
  rw [Parser.statements_tokens, hstatements]
  cases Parser.statements ts <;> rfl

/-- **A program, a line break and a second text are read as one after the other.** -/
theorem parseSource_append {a : String} {f : Factorisation a.toList} {d : Program}
    (h : f.tokens = d.tokens) (b : String) :
    parseSource (a ++ "\n" ++ b)
      = match parseSource b with
        | .ok node => .ok ⟨.program, .null, d.nodes ++ node.children⟩
        | .error e => .error (e.movedDown (1 + a.toList.count '\n')) := by
  unfold parseSource
  rw [tokenize_append f (not_endsOpen_of_tokens h)]
  cases tokenize b with
  | error e => rfl
  | ok ts =>
    rw [h]
    exact parse_append d _ ts

/-- **What a source text fails at**: a character, which the lexer cannot go on with, or a token,
which the parser cannot go on with. That is the end of input at the latest, since the parser does
not read past it. -/
theorem failure_of_parseSource {source : String} {e : ScriptError}
    (h : parseSource source = .error e) :
    ∃ front, front <+: source.toList ∧
      ((∃ c : Char, e = Lexer.unexpectedCharacter (String.singleton c)
          (.int (placeAfter front).line) (.int (placeAfter front).column)) ∨
        ∃ (f : Factorisation source.toList) (t : Token) (rest : List Token),
          Parser.statements (f.tokens ++ [Lexer.endToken (placeAfter source.toList)])
              = .error e (t :: rest) ∧
            (∃ message kinds suggestion,
              e = Parser.unexpected message kinds suggestion (t :: rest)) ∧
            StandsAfter front t) := by
  unfold parseSource at h
  obtain ⟨⟨f⟩⟩ | ⟨p, hp⟩ := factorisation_or_breaksAt source.toList
  · rw [tokenize_of_factorisation f] at h
    obtain ⟨rest, hread⟩ := parse_eq_error_iff.mp h
    obtain ⟨before, hsplit, hstuck⟩ := Parser.stuck_of_statements hread
    obtain ⟨message, kinds, suggestion, he, -⟩ := hstuck.expects
    cases rest with
    | nil =>
      -- then the end of input was read, but nothing that was read is one
      have hend : Lexer.endToken (placeAfter source.toList) ∈ before := by
        rw [List.append_nil] at hsplit
        simp [← hsplit]
      exact absurd (hstuck.inside _ hend) (by simp [isEnd, Lexer.endToken])
    | cons t rest =>
      have ht : t ∈ f.tokens ++ [Lexer.endToken (placeAfter source.toList)] := by
        rw [hsplit]
        simp
      obtain ht | ht := List.mem_append.mp ht
      · obtain ⟨front, hfront, hstands⟩ := exists_standsAfter_of_mem_tokensAfter ht
        refine ⟨front, ?_, .inr ⟨f, t, rest, hread, ⟨message, _, suggestion, he⟩, hstands⟩⟩
        rw [← f.written_append_last]
        exact hfront.trans (List.prefix_append _ _)
      · obtain rfl := List.mem_singleton.mp ht
        exact ⟨source.toList, List.prefix_refl _,
          .inr ⟨f, _, rest, hread, ⟨message, _, suggestion, he⟩, rfl, rfl⟩⟩
  · obtain ⟨c, -, herror⟩ := tokenize_of_breaksAt hp
    rw [herror] at h
    exact ⟨_, List.take_prefix p _, .inl ⟨c, (Except.error.inj h).symm⟩⟩

/-- **An error of a source text has a line.** -/
theorem exists_line_of_parseSource {source : String} {e : ScriptError}
    (h : parseSource source = .error e) : ∃ line : Int, e.line = .int line := by
  obtain ⟨front, -, ⟨c, rfl⟩ | ⟨f, t, rest, -, ⟨message, kinds, suggestion, rfl⟩, hline, -⟩⟩ :=
    failure_of_parseSource h
  · exact ⟨(placeAfter front).line, rfl⟩
  · exact ⟨(placeAfter front).line, hline⟩

end CallScript
