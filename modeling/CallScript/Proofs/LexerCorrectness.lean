import CallScript.Proofs.LexicalGrammar

/-!
# The lexer reads the lexical grammar

The lexer takes one piece after another, and a piece is decided by its first characters. The
argument has two halves. What the lexer reads is allowed: every piece is a gap or a lexeme in front
of the rest (`Piece.lexical_of_readPiece`), so a scan leaves words, a gap, and a rest at which
nothing starts (`exists_words`). And what is allowed is read: wherever a gap or a lexeme stands, the
scan passes it and goes on behind it (`scan_gap`, `scan_lexeme`), so it passes words as a whole and
gives their tokens (`scan_words`).

The second half also settles uniqueness. A scan is a function, so a text cannot have words up to its
end and break off as well, nor break off at two places; and a lexeme is determined by the text it
starts, since reading it gives it back.
-/

namespace CallScript

namespace Lexer

open LexicalGrammar

/-! ## Classes of characters

A piece is told by its first character, so the classes that start pieces must not meet. -/

/-- A name starts with a letter or an underscore. -/
theorem isNameStart_iff {c : Char} :
    isNameStart c = true ↔
      (97 ≤ c.toNat ∧ c.toNat ≤ 122) ∨ (65 ≤ c.toNat ∧ c.toNat ≤ 90) ∨ c.toNat = 95 := by
  have h : c = '_' ↔ c.toNat = 95 := by
    rw [← Char.toNat_inj]
    rfl
  simp only [isNameStart, Bool.or_eq_true, Bool.and_eq_true, decide_eq_true_eq, h, or_assoc]
  rfl

theorem isBasicDigit_iff {c : Char} :
    Binary64.isBasicDigit c = true ↔ 48 ≤ c.toNat ∧ c.toNat ≤ 57 := by
  simp only [Binary64.isBasicDigit, Bool.and_eq_true, decide_eq_true_eq]
  rfl

/-- The characters that have a shape in the basic alphabet are not blank. -/
theorem isBlank_of_visible {c : Char} (h : 33 ≤ c.toNat) (h' : c.toNat ≤ 126) :
    Text.isBlank c = false := by
  simp only [Text.isBlank, Text.isWhiteSpace, Text.inRanges, Text.whiteSpaceRanges,
    Text.separatorRanges, List.any_cons, List.any_nil, Bool.or_eq_false_iff, Bool.and_eq_false_iff,
    decide_eq_false_iff_not, and_true]
  omega

/-- The classes of first characters are apart: what starts a name is not blank. -/
theorem isBlank_of_isNameStart {c : Char} (h : isNameStart c = true) : Text.isBlank c = false := by
  rw [isNameStart_iff] at h
  exact isBlank_of_visible (by omega) (by omega)

theorem isBlank_of_isBasicDigit {c : Char} (h : Binary64.isBasicDigit c = true) :
    Text.isBlank c = false := by
  rw [isBasicDigit_iff] at h
  exact isBlank_of_visible (by omega) (by omega)

theorem isNameStart_of_isBasicDigit {c : Char} (h : Binary64.isBasicDigit c = true) :
    isNameStart c = false := by
  rw [isBasicDigit_iff] at h
  rw [Bool.eq_false_iff, ne_eq, isNameStart_iff]
  omega

theorem isDecimalDigit_of_isBasicDigit {c : Char} (h : Binary64.isBasicDigit c = true) :
    Text.isDecimalDigit c = true := by
  rw [isBasicDigit_iff] at h
  unfold Text.isDecimalDigit Text.digitValue?
  rw [Option.isSome_map, List.find?_isSome]
  exact ⟨0x30, by simp [Text.digitZeros], by simp; omega⟩

/-- A run that starts with a digit is always a number, however many points it holds. -/
theorem readLiteral_of_isBasicDigit {c : Char} (h : Binary64.isBasicDigit c = true)
    (run : List Char) :
    Binary64.readLiteral (String.ofList (c :: run)) = .ok (Binary64.literalValue (c :: run)) := by
  have hwhole : (Binary64.literalWhole (c :: run)).isEmpty = false := by
    simp [Binary64.literalWhole, isDecimalDigit_of_isBasicDigit h]
  simp [Binary64.readLiteral, Binary64.literal?, hwhole]

/-! ## What a piece is told by -/

/-- A blank is read with the blanks behind it. -/
theorem readPiece_of_isBlank {c : Char} (h : Text.isBlank c = true) (cs : List Char) :
    readPiece (c :: cs) = some (runOf Text.isBlank (fun _ => none) (c :: cs)) := by
  simp [readPiece, h]

/-- A comment is read up to the end of its line. -/
theorem readPiece_comment (cs : List Char) :
    readPiece ('/' :: '/' :: cs)
      = some (runOf (· ≠ '\n') (fun _ => none) ('/' :: '/' :: cs)) := by
  rw [readPiece, if_neg (by decide), if_pos (by simp)]

/-- A name is read as far as it goes. -/
theorem readPiece_of_isNameStart {c : Char} (h : isNameStart c = true) (cs : List Char) :
    readPiece (c :: cs)
      = some (runOf isNameChar (fun name => some (nameKind name, .text (String.ofList name)))
          (c :: cs)) := by
  have hslash : c ≠ '/' := by
    rintro rfl
    exact absurd h (by decide)
  simp [readPiece, isBlank_of_isNameStart h, hslash, h]

/-- A string is read up to its closing quote, or up to the end. -/
theorem readPiece_quote (cs : List Char) :
    readPiece ('"' :: cs)
      = some ⟨some (.string, .text (String.ofList (readStringBody cs).value)),
          '"' :: (readStringBody cs).consumed, (readStringBody cs).rest⟩ := by
  rw [readPiece, if_neg (by decide), if_neg (by simp), if_neg (by decide), if_pos rfl]

/-- A number is read as far as digits and points go, whatever of that is its value. -/
theorem readPiece_of_isBasicDigit {c : Char} (h : Binary64.isBasicDigit c = true)
    (cs : List Char) :
    readPiece (c :: cs)
      = some (runOf isNumberChar (fun run => some (.number, .float (Binary64.literalValue run)))
          (c :: cs)) := by
  have hslash : c ≠ '/' := by
    rintro rfl
    exact absurd h (by decide)
  have hquote : c ≠ '"' := by
    rintro rfl
    exact absurd h (by decide)
  simp [readPiece, isBlank_of_isBasicDigit h, hslash, isNameStart_of_isBasicDigit h, hquote, h]

/-- A character starts no piece if it belongs to none of the classes that start one. -/
theorem readPiece_eq_none_iff {c : Char} {cs : List Char} :
    readPiece (c :: cs) = none ↔ Text.isBlank c = false ∧ ¬ (c = '/' ∧ cs.head? = some '/') ∧
      isNameStart c = false ∧ c ≠ '"' ∧ Binary64.isBasicDigit c = false ∧
      punctuation? c = none := by
  rw [readPiece]
  split_ifs <;> simp_all

/-! ## What is allowed is read -/

/-- A run of a class is read in full if the class ends behind it. -/
theorem runOf_append {inClass : Char → Bool} {run rest : List Char}
    (token : List Char → Option (TokenKind × Scalar)) (hrun : ∀ c ∈ run, inClass c = true)
    (hend : Bounded inClass rest) : runOf inClass token (run ++ rest) = ⟨token run, run, rest⟩ := by
  unfold runOf
  rw [takeWhile_run hrun hend, dropWhile_run hrun hend]

/-- What stands for characters of a string is read as these. -/
theorem readStringBody_quoted {w v : List Char} (h : Quoted w v) (rest : List Char) :
    readStringBody (w ++ rest) = ⟨v ++ (readStringBody rest).value,
      w ++ (readStringBody rest).consumed, (readStringBody rest).rest⟩ := by
  induction h with
  | nil => rfl
  | plain hquote hescape _ ih =>
    rw [List.cons_append, readStringBody]
    · rw [ih]
      rfl
    all_goals simp_all
  | escaped _ ih =>
    rw [List.cons_append, List.cons_append, readStringBody, ih]
    rfl

/-- **The body of a string is read up to what closes it.** -/
theorem readStringBody_closing {w v close rest : List Char} (h : Quoted w v)
    (hclose : Closing close rest) :
    readStringBody (w ++ (close ++ rest)) = ⟨v, w ++ close, rest⟩ := by
  rw [readStringBody_quoted h]
  cases hclose <;> simp [readStringBody]

/-- **A lexeme is read as it is written.** -/
theorem readPiece_lexeme {text rest : List Char} {kind : TokenKind} {value : Scalar}
    (h : Lexeme text kind value rest) :
    readPiece (text ++ rest) = some ⟨some (kind, value), text, rest⟩ := by
  cases h with
  | keyword hend =>
    refine (readPiece_of_isNameStart (by decide) _).trans (congrArg some ?_)
    exact @runOf_append _ ['c', 'o', 'r', 'e'] _ _ (by simp [isNameChar, isNameStart]) hend
  | @name c run rest hc hrun hend hother =>
    refine (readPiece_of_isNameStart hc _).trans (congrArg some ?_)
    refine (runOf_append _ (List.forall_mem_cons.mpr ⟨?_, hrun⟩) hend).trans ?_
    · simp [isNameChar, hc]
    · simp [nameKind, hother]
  | @number c run rest x hc hrun hend hx =>
    rw [readLiteral_of_isBasicDigit hc] at hx
    obtain rfl := Except.ok.inj hx
    refine (readPiece_of_isBasicDigit hc _).trans (congrArg some ?_)
    refine runOf_append _ (List.forall_mem_cons.mpr ⟨?_, hrun⟩) hend
    simp [isNumberChar, hc]
  | string hquoted hclose =>
    rw [List.cons_append, List.cons_append, List.append_assoc, readPiece_quote,
      readStringBody_closing hquoted hclose]
  | dot => rfl
  | leftParen => rfl
  | rightParen => rfl
  | semicolon => rfl

/-! ## What is read is allowed -/

/-- A piece is a gap or a lexeme in front of the rest. -/
def Piece.Lexical (p : Piece) : Prop :=
  match p.token with
  | none => Gap p.consumed p.rest
  | some (kind, value) => Lexeme p.consumed kind value p.rest

theorem lexical_blanks (cs : List Char) :
    (runOf Text.isBlank (fun _ => none) cs).Lexical :=
  Gap.of_blanks (fun _ => List.mem_takeWhile_imp) _

theorem lexical_comment (cs : List Char) :
    (runOf (· ≠ '\n') (fun _ => none) ('/' :: '/' :: cs)).Lexical := by
  have h : Gap ('/' :: '/' :: cs.takeWhile (· ≠ '\n') ++ []) (cs.dropWhile (· ≠ '\n')) :=
    .comment (fun c hc => by simpa using List.mem_takeWhile_imp hc) (bounded_dropWhile _ cs)
      (.nil _)
  simpa [Piece.Lexical, runOf] using h

theorem lexical_name {c : Char} (hc : isNameStart c = true) (cs : List Char) :
    (runOf isNameChar (fun name => some (nameKind name, .text (String.ofList name)))
      (c :: cs)).Lexical := by
  have hname : isNameChar c = true := by simp [isNameChar, hc]
  have hend := bounded_dropWhile isNameChar cs
  unfold runOf Piece.Lexical
  rw [List.takeWhile_cons_of_pos hname, List.dropWhile_cons_of_pos hname]
  by_cases hcore : c :: cs.takeWhile isNameChar = ['c', 'o', 'r', 'e']
  · rw [hcore]
    exact .keyword hend
  · simp only [nameKind, if_neg hcore]
    exact .name hc (fun _ => List.mem_takeWhile_imp) hend hcore

theorem lexical_number {c : Char} (hc : Binary64.isBasicDigit c = true) (cs : List Char) :
    (runOf isNumberChar (fun run => some (.number, .float (Binary64.literalValue run)))
      (c :: cs)).Lexical := by
  have hnumber : isNumberChar c = true := by simp [isNumberChar, hc]
  unfold runOf Piece.Lexical
  rw [List.takeWhile_cons_of_pos hnumber, List.dropWhile_cons_of_pos hnumber]
  exact .number hc (fun _ => List.mem_takeWhile_imp) (bounded_dropWhile isNumberChar cs)
    (readLiteral_of_isBasicDigit hc _)

/-- Whatever follows an opening quote is the inside of a string literal up to some end of it. -/
theorem exists_quoted (cs : List Char) :
    ∃ w v close rest, Quoted w v ∧ Closing close rest ∧ cs = w ++ (close ++ rest) := by
  fun_induction readStringBody cs with
  | case1 => exact ⟨[], [], [], [], .nil, .endOfText, rfl⟩
  | case2 rest => exact ⟨[], [], _, rest, .nil, .quote rest, rfl⟩
  | case3 => exact ⟨[], [], _, [], .nil, .loneBackslash, rfl⟩
  | case4 c rest ih =>
    obtain ⟨w, v, close, rest', h, hclose, rfl⟩ := ih
    exact ⟨'\\' :: c :: w, c :: v, close, rest', .escaped h, hclose, rfl⟩
  | case5 c rest hquote hlone hescape ih =>
    obtain ⟨w, v, close, rest', h, hclose, rfl⟩ := ih
    -- a backslash was read before, alone or with the character after it
    have hc : c ≠ '\\' := by
      rintro rfl
      cases hw : w ++ (close ++ rest') with
      | nil => exact hlone rfl hw
      | cons d more => exact hescape d more rfl hw
    exact ⟨c :: w, c :: v, close, rest', .plain hquote hc h, hclose, rfl⟩

/-- **Every piece that is read is a gap or a lexeme**, and the text is the piece and the rest. -/
theorem Piece.lexical_of_readPiece {cs : List Char} {p : Piece} (h : readPiece cs = some p) :
    p.consumed ++ p.rest = cs ∧ p.Lexical := by
  cases cs with
  | nil => exact absurd h (by simp [readPiece])
  | cons c cs =>
    rw [readPiece] at h
    -- the classes of the first character, in the order in which they are tried
    split_ifs at h with hblank hcomment hname hquote hdigit
    · obtain rfl := Option.some.inj h
      exact ⟨List.takeWhile_append_dropWhile, lexical_blanks _⟩
    · obtain rfl := Option.some.inj h
      refine ⟨List.takeWhile_append_dropWhile, ?_⟩
      rw [Bool.and_eq_true, decide_eq_true_eq, decide_eq_true_eq, List.head?_eq_some_iff]
        at hcomment
      obtain ⟨rfl, cs, rfl⟩ := hcomment
      exact lexical_comment cs
    · obtain rfl := Option.some.inj h
      exact ⟨List.takeWhile_append_dropWhile, lexical_name hname cs⟩
    · obtain rfl := Option.some.inj h
      obtain ⟨w, v, close, rest, hquoted, hclose, rfl⟩ := exists_quoted cs
      rw [readStringBody_closing hquoted hclose, hquote]
      exact ⟨by simp, .string hquoted hclose⟩
    · obtain rfl := Option.some.inj h
      exact ⟨List.takeWhile_append_dropWhile, lexical_number hdigit cs⟩
    · obtain ⟨kind, hkind, rfl⟩ := Option.map_eq_some_iff.mp h
      refine ⟨rfl, ?_⟩
      unfold punctuation? at hkind
      split at hkind
      · obtain rfl := Option.some.inj hkind
        exact .dot cs
      · obtain rfl := Option.some.inj hkind
        exact .leftParen cs
      · obtain rfl := Option.some.inj hkind
        exact .rightParen cs
      · obtain rfl := Option.some.inj hkind
        exact .semicolon cs
      · exact absurd hkind (by simp)

/-! ## Scanning past gaps and lexemes -/

/-- Scanning breaks off where no piece can be read. -/
theorem scan_of_none {cs : List Char} (h : readPiece cs = none) (place : Position) :
    scan place cs = ([], ⟨place, cs⟩) := by
  rw [scan]
  split
  · rfl
  · next p hp => rw [h] at hp; exact absurd hp (by simp)

/-- Scanning reads a piece and goes on behind it. -/
theorem scan_of_some {cs : List Char} {p : Piece} (h : readPiece cs = some p) (place : Position) :
    scan place cs = ((p.token.map (stamp place)).toList
      ++ (scan (place.after p.consumed) p.rest).1, (scan (place.after p.consumed) p.rest).2) := by
  rw [scan]
  split
  · next hp => rw [h] at hp; exact absurd hp (by simp)
  · next q hq =>
    rw [h] at hq
    obtain rfl := Option.some.inj hq
    rfl

/-- Passing all the blanks ahead at once, of which there may be none. -/
theorem scan_blanks (place : Position) (cs : List Char) :
    scan place cs
      = scan (place.after (cs.takeWhile Text.isBlank)) (cs.dropWhile Text.isBlank) := by
  cases cs with
  | nil => rfl
  | cons c cs =>
    by_cases hc : Text.isBlank c = true
    · exact scan_of_some (readPiece_of_isBlank hc cs) place
    · rw [List.takeWhile_cons_of_neg hc, List.dropWhile_cons_of_neg hc]
      rfl

theorem scan_blank {c : Char} (hc : Text.isBlank c = true) (place : Position) (cs : List Char) :
    scan place (c :: cs) = scan (place.next c) cs := by
  rw [scan_blanks place (c :: cs), scan_blanks (place.next c) cs,
    List.takeWhile_cons_of_pos hc, List.dropWhile_cons_of_pos hc]
  rfl

/-- **A gap is passed.** The lexer reads a run of blanks at once, but a gap may be cut anywhere
between two blanks. -/
theorem scan_gap {w rest : List Char} (h : Gap w rest) (place : Position) :
    scan place (w ++ rest) = scan (place.after w) rest := by
  induction h generalizing place with
  | nil => rfl
  | blank hc _ ih => exact (scan_blank hc place _).trans (ih _)
  | @comment body more rest hbody hend _ ih =>
    have hrun : ∀ c ∈ '/' :: '/' :: body, decide (c ≠ '\n') = true := by simpa using hbody
    have hpiece : readPiece (('/' :: '/' :: body) ++ (more ++ rest))
        = some ⟨none, '/' :: '/' :: body, more ++ rest⟩ :=
      (readPiece_comment _).trans (congrArg some (runOf_append _ hrun hend))
    rw [List.append_assoc, scan_of_some hpiece, Position.after_append, ← ih]
    rfl

/-- **A lexeme is passed, and gives its token.** -/
theorem scan_lexeme {text rest : List Char} {kind : TokenKind} {value : Scalar}
    (h : Lexeme text kind value rest) (place : Position) :
    scan place (text ++ rest) = (stamp place (kind, value) :: (scan (place.after text) rest).1,
      (scan (place.after text) rest).2) :=
  scan_of_some (readPiece_lexeme h) place

/-- **Words are passed as a whole, and give their tokens.** -/
theorem scan_words {words : List Word} {rest : List Char} (h : Sequence words rest)
    (before : List Char) :
    scan (placeAfter before) (written words ++ rest)
      = (tokensAfter before words ++ (scan (placeAfter (before ++ written words)) rest).1,
        (scan (placeAfter (before ++ written words)) rest).2) := by
  induction words generalizing before with
  | nil => rw [written_nil, List.append_nil]; rfl
  | cons w words ih =>
    obtain ⟨hgap, hlexeme, hwords⟩ := h
    -- the word takes the place where its lexeme starts, and leaves the one behind it
    have hih := ih hwords (before ++ w.gap ++ w.text)
    rw [written_cons, List.append_assoc, List.append_assoc, scan_gap hgap, scan_lexeme hlexeme,
      ← placeAfter_append, ← placeAfter_append, hih, ← List.append_assoc, ← List.append_assoc]
    rfl

/-! ## Where nothing starts -/

theorem readPiece_gap {w rest : List Char} (h : Gap w rest) (hne : w ≠ []) :
    ∃ p, readPiece (w ++ rest) = some p ∧ p.token = none := by
  cases h with
  | nil => exact absurd rfl hne
  | blank hc => exact ⟨_, readPiece_of_isBlank hc _, rfl⟩
  | comment => exact ⟨_, readPiece_comment _, rfl⟩

/-- No gap starts where a lexeme does. -/
theorem gapFree_of_lexeme {text rest : List Char} {kind : TokenKind} {value : Scalar}
    (h : Lexeme text kind value rest) : GapFree (text ++ rest) := by
  intro w behind heq hgap
  by_contra hne
  obtain ⟨p, hp, htoken⟩ := readPiece_gap hgap hne
  rw [heq, readPiece_lexeme h] at hp
  obtain rfl := Option.some.inj hp
  exact absurd htoken (by simp)

/-- A text is barren exactly if no piece can be read from it. -/
theorem barren_iff {rest : List Char} : Barren rest ↔ readPiece rest = none := by
  constructor
  · rintro ⟨hfree, hlexeme⟩
    cases hp : readPiece rest with
    | none => rfl
    | some p =>
      obtain ⟨heq, hlexical⟩ := Piece.lexical_of_readPiece hp
      unfold Piece.Lexical at hlexical
      split at hlexical
      · have hempty : p.consumed = [] := hfree _ _ heq hlexical
        have hshorter := rest_length_lt_of_readPiece hp
        rw [← heq, hempty, List.nil_append] at hshorter
        omega
      · exact absurd hlexical (hlexeme _ _ _ _ heq)
  · intro hnone
    refine ⟨fun w behind heq hgap => ?_, fun text behind kind value heq h => ?_⟩
    · by_contra hne
      obtain ⟨p, hp, -⟩ := readPiece_gap hgap hne
      rw [heq, hnone] at hp
      exact absurd hp (by simp)
    · have hp := readPiece_lexeme h
      rw [heq, hnone] at hp
      exact absurd hp (by simp)

theorem barren_nil : Barren [] := barren_iff.mpr rfl

/-! ## Words are found, and found in one way only -/

/-- **Every text starts with words and a gap behind which nothing starts.** A gap that is read joins
the gap of the word behind it, or the last gap. -/
theorem exists_words (cs : List Char) :
    ∃ words gap rest, cs = written words ++ (gap ++ rest) ∧ Sequence words (gap ++ rest) ∧
      Gap gap rest ∧ Barren rest := by
  cases hp : readPiece cs with
  | none => exact ⟨[], [], cs, rfl, trivial, .nil cs, barren_iff.mpr hp⟩
  | some p =>
    obtain ⟨heq, hlexical⟩ := Piece.lexical_of_readPiece hp
    obtain ⟨words, gap, rest, hrest, hwords, hgap, hbarren⟩ := exists_words p.rest
    unfold Piece.Lexical at hlexical
    rw [hrest] at heq hlexical
    split at hlexical
    · -- a gap goes to the next word if there is one, and otherwise to the last gap
      cases words with
      | nil =>
        rw [written_nil, List.nil_append] at hlexical
        refine ⟨[], p.consumed ++ gap, rest, ?_, trivial, hlexical.append hgap, hbarren⟩
        rw [← heq]
        simp
      | cons w words =>
        obtain ⟨hfirst, hlexeme, hmore⟩ := hwords
        rw [written_cons, List.append_assoc, List.append_assoc] at hlexical
        refine ⟨{ w with gap := p.consumed ++ w.gap } :: words, gap, rest, ?_,
          ⟨hlexical.append hfirst, hlexeme, hmore⟩, hgap, hbarren⟩
        rw [← heq]
        simp
    · next kind value _ =>
      refine ⟨⟨[], p.consumed, kind, value⟩ :: words, gap, rest, ?_,
        ⟨.nil _, hlexical, hwords⟩, hgap, hbarren⟩
      rw [← heq]
      simp
termination_by cs.length
decreasing_by exact rest_length_lt_of_readPiece hp

/-- The scan stops where nothing starts, and gives the tokens of the words before. -/
theorem scan_eq {words : List Word} {gap rest : List Char} (hwords : Sequence words (gap ++ rest))
    (hgap : Gap gap rest) (hbarren : Barren rest) :
    scan {} (written words ++ (gap ++ rest))
      = (tokensAfter [] words, ⟨placeAfter (written words ++ gap), rest⟩) := by
  have h := scan_words hwords []
  rw [List.nil_append, scan_gap hgap, ← placeAfter_append, scan_of_none (barren_iff.mp hbarren),
    List.append_nil] at h
  exact h

end Lexer

namespace LexicalGrammar

open Lexer

/-- **A text starts with at most one lexeme.** -/
theorem Lexeme.eq_of_append {text text' rest rest' : List Char} {kind kind' : TokenKind}
    {value value' : Scalar} (h : Lexeme text kind value rest)
    (h' : Lexeme text' kind' value' rest') (heq : text ++ rest = text' ++ rest') :
    text = text' ∧ kind = kind' ∧ value = value' ∧ rest = rest' := by
  have hp := readPiece_lexeme h
  rw [heq, readPiece_lexeme h'] at hp
  simp only [Option.some.injEq, Piece.mk.injEq, Prod.mk.injEq] at hp
  obtain ⟨⟨hkind, hvalue⟩, htext, hrest⟩ := hp
  exact ⟨htext.symm, hkind.symm, hvalue.symm, hrest.symm⟩

/-- A last gap holds no word. -/
theorem gap_ne_written_cons {w : Word} {words : List Word} {gap gap' : List Char}
    (hgap : Gap gap []) (h : Sequence (w :: words) gap') :
    gap ≠ written (w :: words) ++ gap' := by
  intro heq
  obtain ⟨hfirst, hlexeme, -⟩ := h
  have hsame : gap = w.gap :=
    hgap.eq_of_append hfirst barren_nil.1 (gapFree_of_lexeme hlexeme) (by simpa using heq)
  rw [hsame, written_cons, List.append_assoc, List.self_eq_append_right] at heq
  exact hlexeme.text_ne_nil (by simp_all)

/-- **Words that a last gap follows are determined by the text.** -/
theorem Sequence.eq_of_append {words words' : List Word} {gap gap' : List Char}
    (h : Sequence words gap) (h' : Sequence words' gap') (hgap : Gap gap []) (hgap' : Gap gap' [])
    (heq : written words ++ gap = written words' ++ gap') : words = words' := by
  induction words generalizing words' with
  | nil =>
    cases words' with
    | nil => rfl
    | cons w words' => exact absurd heq (gap_ne_written_cons hgap h')
  | cons w words ih =>
    cases words' with
    | nil => exact absurd heq.symm (gap_ne_written_cons hgap' h)
    | cons w' words' =>
      obtain ⟨hfirst, hlexeme, hmore⟩ := h
      obtain ⟨hfirst', hlexeme', hmore'⟩ := h'
      simp only [written_cons, List.append_assoc] at heq
      have hsame : w.gap = w'.gap :=
        hfirst.eq_of_append hfirst' (gapFree_of_lexeme hlexeme) (gapFree_of_lexeme hlexeme') heq
      rw [hsame, List.append_cancel_left_eq] at heq
      obtain ⟨htext, hkind, hvalue, hrest⟩ := hlexeme.eq_of_append hlexeme' heq
      rw [ih hmore hmore' hrest]
      congr 1
      cases w
      cases w'
      simp_all

/-- **A text has at most one factorisation.** -/
theorem Factorisation.eq {s : List Char} (f g : Factorisation s) : f = g := by
  have hwritten : written f.words ++ f.last = written g.words ++ g.last := by
    rw [f.written_append_last, g.written_append_last]
  have hwords : f.words = g.words := f.sequence.eq_of_append g.sequence f.gap g.gap hwritten
  rw [hwords, List.append_cancel_left_eq] at hwritten
  cases f
  cases g
  simp_all

/-- A text with a factorisation is scanned to its end. -/
theorem Factorisation.scan_eq {s : List Char} (f : Factorisation s) :
    scan {} s = (f.tokens, ⟨placeAfter s, []⟩) := by
  have h := @Lexer.scan_eq f.words f.last [] (by simpa using f.sequence) f.gap barren_nil
  rw [List.append_nil, f.written_append_last] at h
  exact h

/-- A text that breaks off at a place is scanned up to there. -/
theorem BreaksAt.scan_eq {s : List Char} {p : Nat} (h : BreaksAt s p) :
    (scan {} s).2 = ⟨placeAfter (s.take p), s.drop p⟩ := by
  obtain ⟨-, hbarren, words, gap, hwritten, hwords, hgap⟩ := h
  have hscan := Lexer.scan_eq hwords hgap hbarren
  rw [← List.append_assoc, hwritten, List.take_append_drop] at hscan
  rw [hscan]

/-- There is at most one place where a text breaks off. -/
theorem BreaksAt.eq {s : List Char} {p q : Nat} (hp : BreaksAt s p) (hq : BreaksAt s q) :
    p = q := by
  have h : s.drop p = s.drop q := congrArg Stop.rest (hp.scan_eq.symm.trans hq.scan_eq)
  have hlength := congrArg List.length h
  have := hp.1
  have := hq.1
  rw [List.length_drop, List.length_drop] at hlength
  omega

/-- **A text factors or breaks off.** -/
theorem factorisation_or_breaksAt (s : List Char) :
    Nonempty (Factorisation s) ∨ ∃ p, BreaksAt s p := by
  obtain ⟨words, gap, rest, rfl, hwords, hgap, hbarren⟩ := exists_words s
  cases rest with
  | nil =>
    refine .inl ⟨⟨words, gap, by simp, ?_, hgap⟩⟩
    simpa using hwords
  | cons c rest =>
    refine .inr ⟨(written words ++ gap).length, ?_⟩
    rw [← List.append_assoc]
    refine ⟨by simp, ?_, words, gap, ?_, ?_, ?_⟩
    · rwa [List.drop_left]
    · rw [List.take_left]
    · rwa [List.drop_left]
    · rwa [List.drop_left]

end LexicalGrammar

open LexicalGrammar

theorem tokenize_of_factorisation {source : String} (f : Factorisation source.toList) :
    tokenize source = .ok (f.tokens ++ [Lexer.endToken (placeAfter source.toList)]) := by
  unfold tokenize
  rw [f.scan_eq]
  rfl

/-- A text that breaks off is refused with the character at that place. -/
theorem tokenize_of_breaksAt {source : String} {p : Nat} (h : BreaksAt source.toList p) :
    ∃ c, source.toList[p]? = some c ∧
      tokenize source = .error (Lexer.unexpectedCharacter
        (String.singleton c) (.int (placeAfter (source.toList.take p)).line)
        (.int (placeAfter (source.toList.take p)).column)) := by
  have hp := h.1
  refine ⟨source.toList[p], List.getElem?_eq_getElem hp, ?_⟩
  show Lexer.finish (Lexer.scan {} source.toList).1 (Lexer.scan {} source.toList).2 = _
  rw [h.scan_eq, List.drop_eq_getElem_cons hp]
  rfl

/-- **What can be tokenized has a factorisation.** -/
theorem exists_factorisation_of_tokenize {source : String} {ts : List Token}
    (h : tokenize source = .ok ts) :
    ∃ f : Factorisation source.toList,
      ts = f.tokens ++ [Lexer.endToken (placeAfter source.toList)] := by
  obtain ⟨⟨f⟩⟩ | ⟨p, hp⟩ := factorisation_or_breaksAt source.toList
  · rw [tokenize_of_factorisation f] at h
    exact ⟨f, (Except.ok.inj h).symm⟩
  · obtain ⟨c, -, herror⟩ := tokenize_of_breaksAt hp
    rw [h] at herror
    exact absurd herror (by simp)

/-- **The lexer follows the lexical grammar.** A text has tokens exactly when it factors into words
and a last gap, and the tokens are then those of the words, each at the place of its lexeme, and the
end of input at the place where the text ends. There is at most one factorisation. A text without
one breaks off at one character, and the error is about this character and its place. -/
theorem tokenize_follows_lexical_grammar (source : String) :
    (∀ ts, tokenize source = .ok ts ↔
      ∃ f : Factorisation source.toList,
        ts = f.tokens ++ [Lexer.endToken (placeAfter source.toList)]) ∧
    (∀ f g : Factorisation source.toList, f = g) ∧
    (IsEmpty (Factorisation source.toList) ↔ ∃! p, BreaksAt source.toList p) ∧
    ∀ p, BreaksAt source.toList p →
      ∃ c, source.toList[p]? = some c ∧
        tokenize source = .error (Lexer.unexpectedCharacter
          (String.singleton c) (.int (placeAfter (source.toList.take p)).line)
          (.int (placeAfter (source.toList.take p)).column)) := by
  refine ⟨fun ts => ⟨exists_factorisation_of_tokenize, ?_⟩, fun f g => f.eq g,
    ⟨fun hempty => ?_, ?_⟩, fun p => tokenize_of_breaksAt⟩
  · rintro ⟨f, rfl⟩
    exact tokenize_of_factorisation f
  · obtain ⟨⟨f⟩⟩ | ⟨p, hp⟩ := factorisation_or_breaksAt source.toList
    · exact (hempty.false f).elim
    · exact ⟨p, hp, fun q hq => hq.eq hp⟩
  · -- the scan of a text that factors leaves nothing, and that of one that breaks off does
    rintro ⟨p, hp, -⟩
    refine ⟨fun f => ?_⟩
    obtain ⟨c, -, herror⟩ := tokenize_of_breaksAt hp
    rw [tokenize_of_factorisation f] at herror
    exact absurd herror (by simp)

end CallScript
