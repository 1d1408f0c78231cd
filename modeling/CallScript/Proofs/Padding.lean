import CallScript.Proofs.SourceConcatenation

/-!
# Blanks and comments between tokens

Blanks, and comments each with the line break that ends it, are *padding*: they may be put in front
of any token and at the end of a text without changing anything but places. In front of a token they
join the gap that is there already (`Gap.append_padding`), and the words before it do not go on with
a blank or a slash (`Padding.replaces`).

At the end of a text there are two things to watch. A string literal that nothing closes would take
the padding into its value, so behind one nothing may be put. And a last comment that no line break
ends takes in what is put behind it, up to the first line break of that; what is left is padding
again (`Padding.split`), so that the whole is a gap all the same.

A parser looks at the kinds and values of tokens alone, and uses places for nothing but its errors
(`parse_relocated`). So the tree is the same, or else the error is the same at another place.
-/

namespace CallScript

namespace LexicalGrammar

/-! ## Padding -/

/-- **Padding**: blanks, and comments with the line break that ends each. -/
inductive Padding : List Char → Prop where
  | nil : Padding []
  | blank {c : Char} {more : List Char} (hc : Text.isBlank c = true) (h : Padding more) :
      Padding (c :: more)
  | comment {body more : List Char} (hbody : ∀ c ∈ body, c ≠ '\n') (h : Padding more) :
      Padding ('/' :: '/' :: body ++ '\n' :: more)

variable {w v rest : List Char}

/-- Padding is a gap in front of every text. -/
theorem Padding.gap (h : Padding w) (rest : List Char) : Gap w rest := by
  induction h with
  | nil => exact .nil rest
  | blank hc _ ih => exact .blank hc ih
  | comment hbody _ ih =>
    refine .comment hbody ?_ (.blank (by decide) ih)
    rintro c ⟨⟩
    decide

theorem separates_of_isBlank {c : Char} (hc : Text.isBlank c = true) (rest : List Char) :
    Separates (c :: rest) := by
  refine separates_cons (Bool.or_eq_false_iff.mpr ⟨?_, ?_⟩) ?_ rest
  · by_contra h
    rw [Lexer.isBlank_of_isNameStart (Bool.eq_true_of_not_eq_false h)] at hc
    exact absurd hc (by decide)
  · by_contra h
    rw [Lexer.isBlank_of_isBasicDigit (Bool.eq_true_of_not_eq_false h)] at hc
    exact absurd hc (by decide)
  · rintro rfl
    exact absurd hc (by decide)

/-- **No word goes on with padding.** -/
theorem Padding.replaces (h : Padding w) (v rest : List Char) :
    Replaces (v ++ (w ++ rest)) (v ++ rest) := by
  cases v with
  | cons c v => exact .inl rfl
  | nil =>
    cases h with
    | nil => exact .inl rfl
    | blank hc => exact .inr (separates_of_isBlank hc _)
    | comment => exact .inr (separates_cons (by decide) (by decide) _)

/-- Padding without a line break, or cut behind its first one. -/
theorem Padding.split (h : Padding w) :
    (∀ c ∈ w, c ≠ '\n') ∨
      ∃ front back, w = front ++ '\n' :: back ∧ (∀ c ∈ front, c ≠ '\n') ∧ Padding back := by
  induction h with
  | nil => exact .inl (by simp)
  | @blank c more hc h ih =>
    by_cases hbreak : c = '\n'
    · exact .inr ⟨[], more, by rw [hbreak]; rfl, by simp, h⟩
    · obtain hmore | ⟨front, back, rfl, hfront, hback⟩ := ih
      · exact .inl (List.forall_mem_cons.mpr ⟨hbreak, hmore⟩)
      · exact .inr ⟨c :: front, back, rfl, List.forall_mem_cons.mpr ⟨hbreak, hfront⟩, hback⟩
  | @comment body more hbody h ih =>
    exact .inr ⟨'/' :: '/' :: body, more, rfl, by simpa using hbody, h⟩

/-- **A gap with padding behind it is a gap.** A comment at its end takes in the padding up to the
first line break. -/
theorem Gap.append_padding (h : Gap v rest) (hw : Padding w) : Gap (v ++ w) rest := by
  induction h with
  | nil rest => exact hw.gap rest
  | blank hc _ ih => exact .blank hc ih
  | @comment body more rest hbody hend hmore ih =>
    cases more with
    | cons c more =>
      rw [List.append_assoc]
      exact .comment hbody hend ih
    | nil =>
      rw [List.append_nil]
      obtain hunbroken | ⟨front, back, rfl, hfront, hback⟩ := hw.split
      · have hall : ∀ c ∈ body ++ w, c ≠ '\n' := List.forall_mem_append.mpr ⟨hbody, hunbroken⟩
        have hgap : Gap ('/' :: '/' :: (body ++ w) ++ []) rest := .comment hall hend (.nil rest)
        rwa [List.append_nil] at hgap
      · have hall : ∀ c ∈ body ++ front, c ≠ '\n' := List.forall_mem_append.mpr ⟨hbody, hfront⟩
        have hbreak : Bounded (· ≠ '\n') ('\n' :: back ++ rest) := by
          rintro c ⟨⟩
          decide
        have hgap : Gap ('/' :: '/' :: (body ++ front) ++ '\n' :: back) rest :=
          .comment hall hbreak (.blank (by decide) (hback.gap rest))
        simpa using hgap

/-! ## Padding put into a text -/

theorem written_append (words words' : List Word) :
    written (words ++ words') = written words ++ written words' :=
  List.flatMap_append

theorem sequence_append {words words' : List Word} :
    Sequence (words ++ words') rest
      ↔ Sequence words (written words' ++ rest) ∧ Sequence words' rest := by
  induction words with
  | nil => simp [Sequence]
  | cons w words ih =>
    rw [List.cons_append, Sequence, Sequence, ih, written_append, List.append_assoc, and_assoc,
      and_assoc]

/-- **An offset at which a token of a text starts**: behind some words and the gap of the next one,
or at the end, where the end of input is, unless the text ends inside a string literal. -/
inductive Factorisation.StartsAt {s : List Char} (f : Factorisation s) : Nat → Prop
  | word {before after : List Word} {w : Word} (h : f.words = before ++ w :: after) :
      StartsAt f (written before ++ w.gap).length
  | endOfInput (h : ¬ EndsOpen f.words) : StartsAt f s.length

/-- **Padding in front of a token** goes to its gap, and all words stay words. -/
theorem Factorisation.exists_padded {s : List Char} (f : Factorisation s) {p : Nat}
    (hp : f.StartsAt p) (hw : Padding w) :
    ∃ g : Factorisation (s.take p ++ w ++ s.drop p),
      g.words.map Word.lexeme = f.words.map Word.lexeme := by
  cases hp with
  | @word before after x h =>
    have hsequence := f.sequence
    rw [h, sequence_append] at hsequence
    obtain ⟨hbefore, hgap, hlexeme, hafter⟩ := hsequence
    have htext : written before ++ x.gap ++ (x.text ++ (written after ++ f.last)) = s := by
      conv_rhs => rw [← f.written_append_last, h, written_append, written_cons]
      simp only [List.append_assoc]
    have htake : s.take (written before ++ x.gap).length = written before ++ x.gap :=
      (congrArg (List.take _) htext.symm).trans List.take_left
    have hdrop : s.drop (written before ++ x.gap).length = x.text ++ (written after ++ f.last) :=
      (congrArg (List.drop _) htext.symm).trans List.drop_left
    have hne : written (x :: after) ++ f.last ≠ [] := fun hnil =>
      hlexeme.text_ne_nil (by simp_all)
    let padded : Word := { x with gap := x.gap ++ w }
    have hpadded : Sequence (before ++ padded :: after) f.last := by
      refine sequence_append.mpr ⟨?_, hgap.append_padding hw, hlexeme, hafter⟩
      -- the words before still end where they did, for what follows them starts alike
      refine hbefore.replace ?_ fun hnil => absurd hnil hne
      simpa [padded] using hw.replaces x.gap (x.text ++ (written after ++ f.last))
    refine ⟨⟨before ++ padded :: after, f.last, ?_, hpadded, f.gap⟩, ?_⟩
    · rw [htake, hdrop, written_append, written_cons]
      simp [padded]
    · rw [h, List.map_append, List.map_append]
      rfl
  | endOfInput h =>
    have hwords : Sequence f.words (f.last ++ w) := by
      refine f.sequence.replace ?_ fun _ => .inr h
      simpa using hw.replaces f.last []
    refine ⟨⟨f.words, f.last ++ w, ?_, hwords, f.gap.append_padding hw⟩, rfl⟩
    rw [← List.append_assoc, f.written_append_last, List.take_length, List.drop_length,
      List.append_nil]

end LexicalGrammar

open LexicalGrammar

/-! ## Tokens that differ in their places only -/

theorem map_forget (ts : List Token) :
    ts.map (Token.relocated .forget)
      = (ts.map Token.lexeme).map fun l => ⟨l.1, l.2, .null, .null⟩ := by
  rw [List.map_map]
  rfl

/-- **Tokens of the same kinds and values have the same tree**, or the same error at another
place. -/
theorem parse_of_lexemes {ts ts' : List Token}
    (h : ts'.map Token.lexeme = ts.map Token.lexeme) :
    (∀ node, parse ts = .ok node → parse ts' = .ok node) ∧
      ∀ e, parse ts = .error e →
        ∃ line column, parse ts' = .error { e with line := line, column := column } := by
  have hparse := parse_relocated .forget ts'
  rw [map_forget, h, ← map_forget, parse_relocated] at hparse
  refine ⟨fun node hnode => ?_, fun e he => ?_⟩
  · rw [hnode] at hparse
    cases hparse' : parse ts' with
    | ok node' =>
      rw [hparse'] at hparse
      exact congrArg Except.ok (Except.ok.inj hparse).symm
    | error e' =>
      rw [hparse'] at hparse
      exact absurd hparse (by simp)
  · rw [he] at hparse
    cases hparse' : parse ts' with
    | ok node' =>
      rw [hparse'] at hparse
      exact absurd hparse (by simp)
    | error e' =>
      rw [hparse'] at hparse
      have hforget : e.relocated .forget = e'.relocated .forget := Except.error.inj hparse
      rw [ScriptError.relocated, ScriptError.relocated, ScriptError.mk.injEq] at hforget
      obtain ⟨hcause, hmessage, -, -, hcode⟩ := hforget
      refine ⟨e'.line, e'.column, congrArg Except.error ?_⟩
      rw [hcause, hmessage, hcode]

theorem tokenize_ofList {cs : List Char} (f : Factorisation cs) :
    tokenize (String.ofList cs) = .ok (f.tokens ++ [Lexer.endToken (placeAfter cs)]) := by
  unfold tokenize
  rw [String.toList_ofList, f.scan_eq]
  rfl

/-- The tokens of a text with padding have the kinds and values of those of the text. -/
theorem exists_tokens_of_padded {s w : String} {ts : List Token} (hs : tokenize s = .ok ts)
    {f : Factorisation s.toList} {p : Nat} (hp : f.StartsAt p) (hw : Padding w.toList) :
    ∃ ts', tokenize (String.ofList (s.toList.take p ++ w.toList ++ s.toList.drop p)) = .ok ts' ∧
      ts'.map Token.lexeme = ts.map Token.lexeme := by
  obtain ⟨g, hg⟩ := f.exists_padded hp hw
  rw [tokenize_of_factorisation f] at hs
  obtain rfl := Except.ok.inj hs
  refine ⟨_, tokenize_ofList g, ?_⟩
  rw [List.map_append, List.map_append, Factorisation.tokens, Factorisation.tokens,
    map_lexeme_tokensAfter, map_lexeme_tokensAfter, hg]
  rfl

/-- **Padding between tokens is insignificant.** Let a text have tokens, and let padding be put in
at an offset where one of them starts; that may be the end of input, unless the text ends inside a
string literal. Then the text with the padding has tokens of the same kinds and values. So it is
read into the same tree, or fails with the same error but for the place. -/
theorem padding_is_insignificant (s w : String) (ts : List Token) (hs : tokenize s = .ok ts)
    (f : Factorisation s.toList) (p : Nat) (hp : f.StartsAt p) (hw : Padding w.toList) :
    let padded := String.ofList (s.toList.take p ++ w.toList ++ s.toList.drop p)
    (∃ ts', tokenize padded = .ok ts' ∧
      ts'.map (fun t => (t.kind, t.value)) = ts.map (fun t => (t.kind, t.value))) ∧
    (∀ node, parseSource s = .ok node → parseSource padded = .ok node) ∧
    ∀ e, parseSource s = .error e →
      ∃ line column, parseSource padded = .error { e with line := line, column := column } := by
  intro padded
  obtain ⟨ts', hpadded, hlexemes⟩ := exists_tokens_of_padded hs hp hw
  refine ⟨⟨ts', hpadded, hlexemes⟩, ?_⟩
  have hread := parse_of_lexemes hlexemes
  unfold parseSource
  rw [hs, hpadded]
  exact hread

/-- A name with a comment behind it that no line break ends. -/
def nameAndComment : String := "a//"

/-- The words of such a text. -/
def nameAndCommentWords : Factorisation nameAndComment.toList where
  words := [⟨[], ['a'], .identifier, .text "a"⟩]
  last := ['/', '/']
  written_append_last := rfl
  sequence := ⟨.nil _, .name (by decide) (by simp) (by rintro c ⟨⟩; decide) (by decide), trivial⟩
  gap := @Gap.comment [] [] [] (by simp) (by rintro c ⟨⟩) (.nil [])

/-- **A comment put behind a comment** that no line break ends: the text lacks the same token, two
lines further down. -/
theorem nameAndComment_padded :
    tokenize nameAndComment
      = .ok [⟨.identifier, .text "a", .int 1, .int 1⟩, ⟨.endOfInput, .null, .int 1, .int 4⟩] ∧
    nameAndCommentWords.StartsAt 3 ∧ Padding " // b\n//\n".toList ∧
    (∃ ts, tokenize "a// // b\n//\n" = .ok ts ∧
      ts.map (fun t => (t.kind, t.value)) = [(.identifier, .text "a"), (.endOfInput, .null)]) ∧
    ∃ line column, parseSource "a// // b\n//\n"
      = .error { Parser.missingMember ⟨.identifier, .text "a", .int 1, .int 1⟩
          [⟨.endOfInput, .null, .int 1, .int 4⟩] with line := line, column := column } := by
  have htokens : tokenize nameAndComment
      = .ok [⟨.identifier, .text "a", .int 1, .int 1⟩, ⟨.endOfInput, .null, .int 1, .int 4⟩] :=
    tokenize_of_factorisation nameAndCommentWords
  have hstart : nameAndCommentWords.StartsAt 3 := by
    refine .endOfInput ?_
    rintro ⟨w, hw, hstring, -⟩
    obtain rfl := Option.some.inj hw
    exact absurd hstring (by decide)
  have hpadding : Padding " // b\n//\n".toList :=
    .blank (by decide) (@Padding.comment " b".toList _ (by simp)
      (@Padding.comment [] _ (by simp) .nil))
  obtain ⟨htokens', -, herror⟩ := padding_is_insignificant nameAndComment " // b\n//\n" _ htokens
    nameAndCommentWords 3 hstart hpadding
  refine ⟨htokens, hstart, hpadding, htokens', herror _ ?_⟩
  unfold parseSource
  rw [htokens]
  exact parse_eq_error_iff.mpr ⟨_, Parser.statements_of_error rfl rfl⟩

end CallScript
