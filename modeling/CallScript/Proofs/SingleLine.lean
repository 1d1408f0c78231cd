import CallScript.Proofs.ErrorTexts
import CallScript.Proofs.RoundTrip
import Mathlib.Tactic.IntervalCases

/-!
# Errors of one line

A log shows an error by the first line of its text, so it shows the whole head line only if nothing
in the head line breaks it. A message may quote what was found in a source text, and a source text
may hold any line break there is. This module shows that the errors of reading a source text are
safe all the same (`ScriptError.Located`, `exists_located_of_parseSource`).

There are two ways for a source text to get into a message. The lexer quotes the character that it
cannot go on with, in display form; every line break is unprintable, and unprintable characters are
written by their code (`Text.unbroken_display`). The parser quotes names, which hold letters, digits
and underscores only. All else that it says is made of fixed texts and of the names of kinds of
tokens (`Parser.Saying.unbroken`).

The head line also holds the place. It can be written unless one of its numbers has thousands of
digits, which takes a source text of more characters than any memory holds.
-/

namespace CallScript

open Grammar LexicalGrammar

variable {α : Type}

/-! ## Texts without line breaks -/

namespace Text

/-- A text without line breaks. -/
def Unbroken (s : String) : Prop := s.toList.all (!isLineBreak ·) = true

instance (s : String) : Decidable (Unbroken s) := inferInstanceAs (Decidable (_ = true))

theorem unbroken_append {a b : String} : Unbroken (a ++ b) ↔ Unbroken a ∧ Unbroken b := by
  unfold Unbroken
  rw [String.toList_append, List.all_append, Bool.and_eq_true]

theorem unbroken_ofList {cs : List Char} :
    Unbroken (String.ofList cs) ↔ ∀ c ∈ cs, isLineBreak c = false := by
  unfold Unbroken
  simp only [String.toList_ofList, List.all_eq_true, Bool.not_eq_true']

/-- **The first line of a text goes through its unbroken start.** -/
theorem firstLine_append {a : String} (h : Unbroken a) (b : String) :
    firstLine (a ++ b) = a ++ firstLine b := by
  unfold firstLine
  rw [String.toList_append, List.takeWhile_append_of_pos (List.all_eq_true.mp h),
    String.ofList_append, String.ofList_toList]

/-- Lines that each follow a line break add nothing to the first line. -/
theorem firstLine_join (lines : List String) :
    firstLine (String.join (lines.map ("\n  " ++ ·))) = "" := by
  cases lines with
  | nil => rfl
  | cons line lines =>
    have hjoin : (String.join ((line :: lines).map ("\n  " ++ ·))).toList
        = '\n' :: ([' ', ' '] ++ line.toList
            ++ (String.join (lines.map ("\n  " ++ ·))).toList) := by
      simp [String.join_cons]
    unfold firstLine
    rw [hjoin, List.takeWhile_cons_of_neg (by decide)]

/-! ## Numbers and quoted characters -/

theorem isLineBreak_digitChar (n : Nat) : isLineBreak n.digitChar = false := by
  by_cases hn : n < 16
  · interval_cases n <;> rfl
  · rw [Nat.digitChar_eq_star.mpr (not_lt.mp hn)]
    rfl

theorem isLineBreak_of_mem_toDigits {b : Nat} (hb : 1 < b) (n : Nat) :
    ∀ c ∈ Nat.toDigits b n, isLineBreak c = false := by
  induction n using Nat.strongRecOn with
  | ind n ih =>
    rw [Nat.toDigits_eq_if hb]
    split
    · simp [isLineBreak_digitChar]
    · next hn =>
      have hsmaller : n / b < n := Nat.div_lt_self (by omega) hb
      refine List.forall_mem_append.mpr ⟨ih (n / b) hsmaller, ?_⟩
      simp [isLineBreak_digitChar]

theorem unbroken_toString (n : Int) : Unbroken (toString n) := by
  have hrepr : ∀ k : Nat, Unbroken k.repr := by
    intro k
    rw [Nat.repr_eq_ofList_toDigits]
    exact unbroken_ofList.mpr (isLineBreak_of_mem_toDigits (by decide) k)
  rw [Int.toString_eq_repr, Int.repr_eq_if]
  split
  · exact hrepr _
  · exact unbroken_append.mpr ⟨by decide, hrepr _⟩

theorem inRanges_of_mem {ranges : List (Nat × Nat)} {r : Nat × Nat} {c : Char} (hr : r ∈ ranges)
    (hlow : r.1 ≤ c.toNat) (hhigh : c.toNat ≤ r.2) : inRanges ranges c = true :=
  List.any_eq_true.mpr ⟨r, hr, by simp [hlow, hhigh]⟩

/-- **Line breaks are not printable.** -/
theorem isLineBreak_of_isPrintable {c : Char} (h : isPrintable c = true) :
    isLineBreak c = false := by
  have hout : ∀ r ∈ unprintableRanges, ¬(r.1 ≤ c.toNat ∧ c.toNat ≤ r.2) := by
    intro r hr hin
    rw [isPrintable, inRanges_of_mem hr hin.1 hin.2] at h
    cases h
  have hcontrols := hout (0x0, 0x1f) (by decide)
  have hlatin := hout (0x7f, 0xa0) (by decide)
  have hseparators := hout (0x2028, 0x202f) (by decide)
  unfold isLineBreak inRanges
  simp only [List.any_cons, List.any_nil, Bool.or_false, Bool.or_eq_false_iff,
    Bool.and_eq_false_iff, decide_eq_false_iff_not]
  omega

theorem isLineBreak_of_mem_codeEscape (c : Char) :
    ∀ d ∈ codeEscape c, isLineBreak d = false := by
  have hdigits : ∀ width n, ∀ d ∈ hexDigits width n, isLineBreak d = false := by
    intro width n
    refine List.forall_mem_append.mpr ⟨fun d hd => ?_, isLineBreak_of_mem_toDigits (by decide) n⟩
    rw [List.eq_of_mem_replicate hd]
    rfl
  unfold codeEscape
  split
  · exact List.forall_mem_cons.mpr ⟨rfl, List.forall_mem_cons.mpr ⟨rfl, hdigits _ _⟩⟩
  · split
    · exact List.forall_mem_cons.mpr ⟨rfl, List.forall_mem_cons.mpr ⟨rfl, hdigits _ _⟩⟩
    · exact List.forall_mem_cons.mpr ⟨rfl, List.forall_mem_cons.mpr ⟨rfl, hdigits _ _⟩⟩

theorem isLineBreak_of_mem_displayChar {quote : Char} (hquote : isLineBreak quote = false)
    (c : Char) : ∀ d ∈ displayChar quote c, isLineBreak d = false := by
  have hescaped : ∀ d, isLineBreak d = false → ∀ x ∈ ['\\', d], isLineBreak x = false :=
    fun d hd => List.forall_mem_cons.mpr ⟨rfl, List.forall_mem_singleton.mpr hd⟩
  unfold displayChar
  split
  · next h =>
    rw [Bool.or_eq_true, decide_eq_true_eq, decide_eq_true_eq] at h
    obtain rfl | rfl := h
    · exact hescaped _ hquote
    · exact hescaped _ rfl
  · split
    · exact hescaped _ rfl
    · split
      · exact hescaped _ rfl
      · split
        · exact hescaped _ rfl
        · split
          · next h => exact List.forall_mem_singleton.mpr (isLineBreak_of_isPrintable h)
          · exact isLineBreak_of_mem_codeEscape c

/-- **A text in quotes has no line breaks**, whatever the text. -/
theorem unbroken_display (s : String) : Unbroken (display s) := by
  have hquote : isLineBreak (displayQuote s.toList) = false := by
    unfold displayQuote
    split <;> rfl
  unfold display
  refine unbroken_ofList.mpr
    (List.forall_mem_append.mpr ⟨List.forall_mem_cons.mpr ⟨hquote, ?_⟩, ?_⟩)
  · intro d hd
    obtain ⟨c, -, hc⟩ := List.mem_flatMap.mp hd
    exact isLineBreak_of_mem_displayChar hquote c d hc
  · simpa using hquote

end Text

open Text (Unbroken unbroken_append)

/-! ## Errors with a place -/

namespace ScriptError

/-- The brief form of an error whose head line has no line breaks is the head line. -/
theorem brief_of_unbroken {methodsOf : Nat → List Scalar} {e : ScriptError} {head : String}
    {lines : List String} (hhead : e.head methodsOf = .ok head)
    (hdetails : e.details methodsOf = .ok lines) (h : Unbroken head) :
    e.brief methodsOf = .ok head := by
  unfold brief text
  rw [hhead, hdetails]
  show Except.ok (Text.firstLine (head ++ _)) = _
  rw [Text.firstLine_append h, Text.firstLine_join, String.append_empty]

/-- **An error at a place in a source text**, with a message of one line. -/
structure Located (e : ScriptError) (line column : Int) (message : String) : Prop where
  line : e.line = .int line
  column : e.column = .int column
  unbroken : Unbroken message
  wording : e.message = .text message
  code : e.code = .text e.kind.code
  /-- What it says beyond its head line can be written. -/
  details : ∀ methodsOf, Value.ShortNames methodsOf → ∃ lines, e.details methodsOf = .ok lines

theorem unbroken_code (kind : ErrorKind) : Unbroken kind.code := by
  cases kind <;> decide

/-- The place of such an error, if its numbers can be written. -/
theorem Located.place {e : ScriptError} {line column : Int} {message : String}
    (h : e.Located line column message) (hline : Value.isLong (.int line) = false)
    (hcolumn : Value.isLong (.int column) = false) (methodsOf : Nat → List Scalar) :
    e.place methodsOf = .ok ("Line " ++ toString line ++ ":" ++ toString column ++ " | ") := by
  have hnumber : ∀ {n : Int}, Value.isLong (.int n) = false →
      (Value.int n).plain methodsOf = .ok (toString n) := fun hn => Value.written_of_short hn _
  unfold ScriptError.place
  rw [h.line, h.column, hnumber hline, hnumber hcolumn]
  rfl

/-- **A log shows such an error in full**: its place, its code and its message. -/
theorem Located.brief {e : ScriptError} {line column : Int} {message : String}
    (h : e.Located line column message) (hline : Value.isLong (.int line) = false)
    (hcolumn : Value.isLong (.int column) = false) {methodsOf : Nat → List Scalar}
    (hnames : Value.ShortNames methodsOf) :
    e.brief methodsOf = .ok ("Line " ++ toString line ++ ":" ++ toString column ++ " | ["
      ++ e.kind.code ++ "] " ++ message) := by
  have hhead : e.head methodsOf = .ok ("Line " ++ toString line ++ ":" ++ toString column ++ " | ["
      ++ e.kind.code ++ "] " ++ message) := by
    unfold head
    rw [h.place hline hcolumn, h.code, h.wording]
    show Except.ok ("Line " ++ toString line ++ ":" ++ toString column ++ " | " ++ "["
      ++ e.kind.code ++ "] " ++ message) = _
    simp only [String.append_assoc]
    rfl
  obtain ⟨lines, hlines⟩ := h.details methodsOf hnames
  refine brief_of_unbroken hhead hlines ?_
  simp only [unbroken_append]
  exact ⟨⟨⟨⟨⟨⟨⟨by decide, Text.unbroken_toString _⟩, by decide⟩, Text.unbroken_toString _⟩,
    by decide⟩, unbroken_code _⟩, by decide⟩, h.unbroken⟩

end ScriptError

/-! ## What the parser says -/

namespace Parser

theorem unbroken_name (kind : TokenKind) : Unbroken kind.name := by
  cases kind <;> decide

/-- **The parser breaks no line**, if the names it quotes do not. -/
theorem Saying.unbroken {message : String}
    (h : Saying (fun object => Unbroken object.name) message) : Unbroken message := by
  cases h with
  | missing wanted found =>
    simp only [unbroken_append]
    exact ⟨⟨⟨by decide, unbroken_name wanted⟩, by decide⟩, unbroken_name found⟩
  | nothing => decide
  | expression found => exact unbroken_append.mpr ⟨by decide, unbroken_name found⟩
  | statement found => exact unbroken_append.mpr ⟨by decide, unbroken_name found⟩
  | member hobject =>
    simp only [unbroken_append]
    exact ⟨⟨by decide, hobject⟩, by decide⟩

theorem Replies.saying_of_error {Quoted : Token → Prop} {p : Parser α} (hp : Replies Quoted p)
    {ts rest : List Token} {e : ScriptError} (hts : Quotable Quoted ts)
    (h : p ts = .error e rest) : ∃ message, Saying Quoted message ∧ e.message = .text message := by
  obtain ⟨r, htells, hr⟩ := hp ts hts
  rw [hr ts rfl] at h
  cases r with
  | answer a taken => cases h
  | complaint message expected suggestion taken =>
    cases h
    exact ⟨message, htells, rfl⟩

end Parser

/-! ## Errors of a source text -/

theorem Lexer.isNameChar_of_mem {c : Char} {run : List Char} (hstart : isNameStart c = true)
    (hrun : run.all isNameChar = true) : ∀ d ∈ c :: run, isNameChar d = true := by
  refine List.forall_mem_cons.mpr ⟨?_, List.all_eq_true.mp hrun⟩
  rw [isNameChar, hstart, Bool.true_or]

theorem Text.isLineBreak_of_isNameChar {c : Char} (h : Lexer.isNameChar c = true) :
    isLineBreak c = false := by
  have hcode : 0x30 ≤ c.toNat ∧ c.toNat ≤ 0x7a := by
    rw [Lexer.isNameChar, Bool.or_eq_true, Lexer.isNameStart_iff, Lexer.isBasicDigit_iff] at h
    omega
  unfold isLineBreak inRanges
  simp only [List.any_cons, List.any_nil, Bool.or_false, Bool.or_eq_false_iff,
    Bool.and_eq_false_iff, decide_eq_false_iff_not]
  omega

/-- A name has no line breaks. -/
theorem Script.unbroken_identifier (x : Script.Identifier) : Unbroken x.val := by
  have h := x.property
  rw [← String.ofList_toList (s := x.val)]
  refine Text.unbroken_ofList.mpr fun c hc => Text.isLineBreak_of_isNameChar ?_
  cases hx : x.val.toList with
  | nil =>
    rw [hx] at hc
    cases hc
  | cons d run =>
    rw [hx] at h hc
    rw [Script.isIdentifier, Bool.and_eq_true, Bool.and_eq_true] at h
    exact Lexer.isNameChar_of_mem h.1.1 h.1.2 c hc

/-- **The tokens of a source text may be quoted.** -/
theorem LexicalGrammar.Factorisation.quotable {s : List Char} (f : Factorisation s) :
    Parser.Quotable (fun object => Unbroken object.name)
      (f.tokens ++ [Lexer.endToken (placeAfter s)]) := by
  intro t ht hkind
  obtain ht | ht := List.mem_append.mp ht
  · obtain ⟨x, hx⟩ := (fromLexeme_of_mem_tokensAfter f.sequence [] ht).value_identifier hkind
    rw [Token.name, hx]
    exact Script.unbroken_identifier x
  · obtain rfl := List.mem_singleton.mp ht
    cases hkind

/-- No place in a text has larger numbers than the text has characters, and one more. -/
theorem LexicalGrammar.placeAfter_le (before : List Char) :
    (placeAfter before).line ≤ before.length + 1 ∧
      (placeAfter before).column ≤ before.length + 1 := by
  have hline : before.count '\n' ≤ before.length := List.count_le_length
  have hcolumn : (before.rtakeWhile (· ≠ '\n')).length ≤ before.length :=
    (List.rtakeWhile_suffix _ before).length_le
  simp only [placeAfter]
  omega

theorem Value.isLong_of_lt {n : Nat} (h : n < 10 ^ digitLimit) : isLong (.int n) = false := by
  -- the power must not be evaluated
  generalize hlimit : digitLimit = limit at h
  unfold isLong
  rw [hlimit]
  exact decide_eq_false (not_le.mpr h)

/-- **An error of a source text has a place and a message of one line.** -/
theorem exists_located_of_parseSource {source : String} {e : ScriptError}
    (h : parseSource source = .error e) :
    ∃ (place : Position) (message : String), e.Located place.line place.column message ∧
      place.line ≤ source.length + 1 ∧ place.column ≤ source.length + 1 := by
  obtain ⟨front, hfront, hfailure⟩ := failure_of_parseSource h
  refine ⟨placeAfter front, ?_⟩
  have hplace : (placeAfter front).line ≤ source.length + 1 ∧
      (placeAfter front).column ≤ source.length + 1 := by
    have hlength := hfront.length_le
    rw [String.length_toList] at hlength
    have hle := LexicalGrammar.placeAfter_le front
    omega
  obtain ⟨c, rfl⟩ | ⟨f, t, rest, hread, ⟨message, kinds, suggestion, he⟩, hline, hcolumn⟩ :=
    hfailure
  · refine ⟨_, ⟨rfl, rfl, ?_, rfl, rfl, fun methodsOf hnames => ?_⟩, hplace⟩
    · exact unbroken_append.mpr ⟨by decide, Text.unbroken_display (String.singleton c)⟩
    · have hnone : Value.list [] = Value.texts [] := rfl
      exact (Cause.exists_details_iff hnames).mpr (Expectation.told_of_texts hnone rfl rfl)
  · obtain ⟨words, hsaying, hwords⟩ := Parser.replies_statements.saying_of_error f.quotable hread
    refine ⟨words, ?_, hplace⟩
    subst he
    refine ⟨hline, hcolumn, hsaying.unbroken, hwords, rfl, fun methodsOf hnames => ?_⟩
    refine (Cause.exists_details_iff hnames).mpr (Expectation.told_of_texts rfl rfl ?_)
    cases suggestion <;> rfl

end CallScript
