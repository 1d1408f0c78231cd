import CallScript.Proofs.ScanRounds

/-!
# The number that a text starts with

A literal is digits, perhaps with a point and more digits behind it. The digits may be those of any
script, and there may be none behind the point (`Binary64.Literal`). Many literals may start a text;
the one that is read is the longest (`Literal.Longest`), and it is read as the general reader of
numerals reads it (`Literal.lenient?_text`), which knows signs, exponents, padding and more, and
meets none of these in a literal.

So what follows the longest literal makes no difference, in particular a second point and whatever
is behind it. A scan meets numbers only where a digit of the basic alphabet is ahead. The run of
digits and points there starts with a literal, and the error of a text that does not cannot arise.
-/

namespace CallScript

open LexicalGrammar

namespace Binary64

/-! ## Literals -/

/-- **A literal**, by its parts. -/
structure Literal where
  whole : List Char
  fraction : Option (List Char)
  whole_ne_nil : whole ≠ []
  isDecimalDigit_whole : ∀ c ∈ whole, Text.isDecimalDigit c = true
  isDecimalDigit_fraction : ∀ digits ∈ fraction, ∀ c ∈ digits, Text.isDecimalDigit c = true

namespace Literal

/-- The text of a literal. -/
def text (l : Literal) : List Char := l.whole ++ (l.fraction.map ('.' :: ·)).getD []

/-- **The longest literal that a text starts with.** -/
structure Longest (l : Literal) (cs : List Char) : Prop where
  isPrefix : l.text <+: cs
  length_le : ∀ other : Literal, other.text <+: cs → other.text.length ≤ l.text.length

/-- There is at most one longest literal at the start of a text. -/
theorem Longest.text_eq {l l' : Literal} {cs : List Char} (h : l.Longest cs) (h' : l'.Longest cs) :
    l.text = l'.text :=
  (List.prefix_of_prefix_length_le h.isPrefix h'.isPrefix (h'.length_le l h.isPrefix)).eq_of_length
    (Nat.le_antisymm (h'.length_le l h.isPrefix) (h.length_le l' h'.isPrefix))

theorem isDecimalDigit_point : Text.isDecimalDigit '.' = false := by decide

/-! ## The literal that is read -/

/-- The fraction that follows the digits at the start of a text, if a point does. -/
def fractionOf (cs : List Char) : Option (List Char) :=
  match cs.dropWhile Text.isDecimalDigit with
  | '.' :: tail => some (tail.takeWhile Text.isDecimalDigit)
  | _ => none

/-- The literal that is read at the start of a text. -/
def ofText (cs : List Char) (hwhole : literalWhole cs ≠ []) : Literal where
  whole := literalWhole cs
  fraction := fractionOf cs
  whole_ne_nil := hwhole
  isDecimalDigit_whole _ := List.mem_takeWhile_imp
  isDecimalDigit_fraction digits hdigits c hc := by
    unfold fractionOf at hdigits
    split at hdigits
    · obtain rfl := Option.some.inj hdigits
      exact List.mem_takeWhile_imp hc
    · cases hdigits

/-- The digits behind the point, if there is one. -/
theorem getD_fractionOf (cs : List Char) : (fractionOf cs).getD [] = literalFraction cs := by
  unfold fractionOf literalFraction
  generalize cs.dropWhile Text.isDecimalDigit = rest
  cases rest with
  | nil => rfl
  | cons c tail =>
    by_cases hc : c = '.'
    · subst hc
      rfl
    · simp [hc]

/-- The literal that is read off a text is its start. -/
theorem isPrefix_ofText {cs : List Char} (hwhole : literalWhole cs ≠ []) :
    (ofText cs hwhole).text <+: cs := by
  have htail : ((fractionOf cs).map ('.' :: ·)).getD [] <+: cs.dropWhile Text.isDecimalDigit := by
    unfold fractionOf
    split
    · next tail htail =>
      rw [htail]
      exact (List.prefix_cons_inj _).mpr (List.takeWhile_prefix _)
    · exact List.nil_prefix
  have h := (List.prefix_append_right_inj (cs.takeWhile Text.isDecimalDigit)).mpr htail
  rwa [List.takeWhile_append_dropWhile] at h

/-- **Every literal at the start of a text starts the one that is read.** -/
theorem isPrefix_of_isPrefix {cs : List Char} (hwhole : literalWhole cs ≠ []) {l : Literal}
    (h : l.text <+: cs) : l.text <+: (ofText cs hwhole).text := by
  obtain ⟨behind, rfl⟩ := h
  show l.text <+: literalWhole (l.text ++ behind)
    ++ ((fractionOf (l.text ++ behind)).map ('.' :: ·)).getD []
  cases hfraction : l.fraction with
  | none =>
    have htext : l.text = l.whole := by simp [text, hfraction]
    rw [htext, literalWhole, List.takeWhile_append_of_pos l.isDecimalDigit_whole,
      List.append_assoc]
    exact List.prefix_append _ _
  | some digits =>
    have htext : l.text = l.whole ++ '.' :: digits := by simp [text, hfraction]
    have hcs : l.text ++ behind = l.whole ++ '.' :: (digits ++ behind) := by simp [htext]
    have hend : Bounded Text.isDecimalDigit ('.' :: (digits ++ behind)) := by
      rintro c ⟨⟩
      exact isDecimalDigit_point
    have hmore : fractionOf (l.text ++ behind)
        = some (digits ++ behind.takeWhile Text.isDecimalDigit) := by
      unfold fractionOf
      rw [hcs, dropWhile_run l.isDecimalDigit_whole hend]
      show some ((digits ++ behind).takeWhile Text.isDecimalDigit) = _
      rw [List.takeWhile_append_of_pos (l.isDecimalDigit_fraction digits hfraction)]
    rw [hmore, literalWhole, hcs, takeWhile_run l.isDecimalDigit_whole hend, htext]
    show l.whole ++ '.' :: digits
      <+: l.whole ++ '.' :: (digits ++ behind.takeWhile Text.isDecimalDigit)
    rw [← List.cons_append, ← List.append_assoc]
    exact List.prefix_append _ _

/-- **The literal that is read off a text is the longest.** -/
theorem longest_ofText {cs : List Char} (hwhole : literalWhole cs ≠ []) :
    (ofText cs hwhole).Longest cs :=
  ⟨isPrefix_ofText hwhole, fun _ h => (isPrefix_of_isPrefix hwhole h).length_le⟩

/-- A text that starts with a literal starts with a digit. -/
theorem literalWhole_ne_nil {cs : List Char} {l : Literal} (h : l.text <+: cs) :
    literalWhole cs ≠ [] := by
  obtain ⟨behind, rfl⟩ := h
  rw [literalWhole, text, List.append_assoc,
    List.takeWhile_append_of_pos l.isDecimalDigit_whole]
  exact List.append_ne_nil_of_left_ne_nil l.whole_ne_nil _

/-! ## The value of a literal -/

/-- The value of a literal, by its digits. -/
def value (l : Literal) : Binary64 := (ofParts l.whole (l.fraction.getD []) 0).toBinary64 false

/-- The literal that is read off a text has the value that is read. -/
theorem value_ofText {cs : List Char} (hwhole : literalWhole cs ≠ []) :
    (ofText cs hwhole).value = literalValue cs := by
  show (ofParts (literalWhole cs) ((fractionOf cs).getD []) 0).toBinary64 false = _
  rw [getD_fractionOf]
  rfl

/-- A digit of any script has a counterpart of the same value in the basic alphabet. -/
theorem basicChar_of_isDecimalDigit {c : Char} (h : Text.isDecimalDigit c = true) :
    isBasicDigit (basicChar c) = true ∧ Text.digitValue? (basicChar c) = Text.digitValue? c := by
  have hbasic : ∀ d < 10, isBasicDigit (Char.ofNat ('0'.toNat + d)) = true ∧
      Text.digitValue? (Char.ofNat ('0'.toNat + d)) = some d := by decide
  obtain ⟨d, hd⟩ := Option.isSome_iff_exists.mp h
  have hsmall : d < 10 := by
    obtain ⟨start, hstart, rfl⟩ := Option.map_eq_some_iff.mp hd
    have hrange := List.find?_some hstart
    rw [Bool.and_eq_true, decide_eq_true_eq, decide_eq_true_eq] at hrange
    omega
  unfold basicChar
  rw [hd]
  exact hbasic d hsmall

theorem isBasicDigit_of_mem_map {digits : List Char}
    (h : ∀ c ∈ digits, Text.isDecimalDigit c = true) :
    ∀ c ∈ digits.map basicChar, isBasicDigit c = true := by
  intro c hc
  obtain ⟨d, hd, rfl⟩ := List.mem_map.mp hc
  exact (basicChar_of_isDecimalDigit (h d hd)).1

/-- Digits of any script have the value of their basic forms. -/
theorem digitsValue_map_basicChar {digits : List Char}
    (h : ∀ c ∈ digits, Text.isDecimalDigit c = true) :
    digitsValue (digits.map basicChar) = digitsValue digits := by
  unfold digitsValue
  rw [List.foldl_map]
  refine List.foldl_ext _ _ _ fun n c hc => ?_
  rw [(basicChar_of_isDecimalDigit (h c hc)).2]

/-- A literal in the basic alphabet. -/
def basic (l : Literal) : Literal where
  whole := l.whole.map basicChar
  fraction := l.fraction.map (·.map basicChar)
  whole_ne_nil := by simpa using l.whole_ne_nil
  isDecimalDigit_whole c hc :=
    Lexer.isDecimalDigit_of_isBasicDigit (isBasicDigit_of_mem_map l.isDecimalDigit_whole c hc)
  isDecimalDigit_fraction digits hdigits c hc := by
    obtain ⟨ds, hds, rfl⟩ := Option.map_eq_some_iff.mp hdigits
    exact Lexer.isDecimalDigit_of_isBasicDigit
      (isBasicDigit_of_mem_map (l.isDecimalDigit_fraction ds hds) c hc)

theorem text_basic (l : Literal) : l.basic.text = l.text.map basicChar := by
  have hpoint : basicChar '.' = '.' := by decide
  show l.whole.map basicChar ++ ((l.fraction.map (·.map basicChar)).map ('.' :: ·)).getD []
    = (l.whole ++ (l.fraction.map ('.' :: ·)).getD []).map basicChar
  cases l.fraction with
  | none => simp
  | some digits => simp [hpoint]

/-- A literal in basic digits has the same value. -/
theorem value_basic (l : Literal) : l.basic.value = l.value := by
  have hdigits : ∀ c ∈ l.whole ++ l.fraction.getD [], Text.isDecimalDigit c = true := by
    refine List.forall_mem_append.mpr ⟨l.isDecimalDigit_whole, ?_⟩
    cases hfraction : l.fraction with
    | none => exact fun c hc => absurd hc List.not_mem_nil
    | some digits => exact l.isDecimalDigit_fraction digits hfraction
  have hfraction : l.basic.fraction.getD [] = (l.fraction.getD []).map basicChar := by
    show (l.fraction.map (·.map basicChar)).getD [] = _
    cases l.fraction <;> rfl
  unfold value ofParts
  rw [hfraction, List.length_map, ← digitsValue_map_basicChar hdigits, List.map_append]
  rfl

/-- A literal with digits of the basic alphabet only. -/
def IsBasic (l : Literal) : Prop :=
  (∀ c ∈ l.whole, isBasicDigit c = true) ∧
    ∀ digits ∈ l.fraction, ∀ c ∈ digits, isBasicDigit c = true

theorem isBasic_basic (l : Literal) : l.basic.IsBasic := by
  refine ⟨isBasicDigit_of_mem_map l.isDecimalDigit_whole, fun digits hdigits => ?_⟩
  obtain ⟨ds, hds, rfl⟩ := Option.map_eq_some_iff.mp hdigits
  exact isBasicDigit_of_mem_map (l.isDecimalDigit_fraction ds hds)

/-- A literal in basic digits is made of what the lexer takes for a number. -/
theorem IsBasic.isNumberChar {l : Literal} (h : l.IsBasic) :
    ∀ c ∈ l.text, Lexer.isNumberChar c = true := by
  have hdigit : ∀ c, isBasicDigit c = true → Lexer.isNumberChar c = true := by
    intro c hc
    rw [Lexer.isNumberChar, hc, Bool.true_or]
  unfold text
  refine List.forall_mem_append.mpr ⟨fun c hc => hdigit c (h.1 c hc), ?_⟩
  cases hfraction : l.fraction with
  | none => exact fun c hc => absurd hc List.not_mem_nil
  | some digits =>
    exact List.forall_mem_cons.mpr ⟨by decide, fun c hc => hdigit c (h.2 digits hfraction c hc)⟩

/-! ## The general reader on a literal -/

theorem isPadding_of_isNumberChar {c : Char} (h : Lexer.isNumberChar c = true) :
    isPadding c = false := by
  rw [Bool.eq_false_iff]
  intro hpadding
  simp only [isPadding, Bool.or_eq_true, Bool.and_eq_true, decide_eq_true_eq] at hpadding
  obtain rfl | hcontrol := hpadding
  · exact absurd h (by decide)
  · rw [Lexer.isNumberChar, Bool.or_eq_true, decide_eq_true_eq, Lexer.isBasicDigit_iff] at h
    obtain hdigit | rfl := h
    · omega
    · exact absurd hcontrol (by decide)

theorem trimBy_eq_self {drop : Char → Bool} {cs : List Char} (h : ∀ c ∈ cs, drop c = false) :
    Text.trimBy drop cs = cs := by
  have hfree : ∀ cs : List Char, (∀ c ∈ cs, drop c = false) → cs.dropWhile drop = cs := by
    intro cs h
    cases cs with
    | nil => rfl
    | cons c cs => exact List.dropWhile_cons_of_neg (by simp [h c List.mem_cons_self])
  rw [Text.trimBy, hfree cs h, hfree cs.reverse fun c hc => h c (List.mem_reverse.mp hc),
    List.reverse_reverse]

/-- A text without underscores is left as it is. -/
theorem dropUnderscores?_eq {cs : List Char} (h : ∀ c ∈ cs, c ≠ '_') (afterDigit : Bool) :
    dropUnderscores? afterDigit cs = some cs := by
  induction cs generalizing afterDigit with
  | nil => rfl
  | cons c cs ih =>
    obtain ⟨hc, hcs⟩ := List.forall_mem_cons.mp h
    simp [dropUnderscores?, hc, ih hcs]

/-- A numeral that starts with a digit has no sign and is no word. -/
theorem plain?_of_isBasicDigit {c : Char} (hc : isBasicDigit c = true) (cs : List Char) :
    plain? (c :: cs) = (unsigned? (c :: cs)).map (·.toBinary64 false) := by
  have hsign : takeSign (c :: cs) = (false, c :: cs) := by
    unfold takeSign
    split
    · next h => rw [(List.cons.inj h).1] at hc; exact absurd hc (by decide)
    · next h => rw [(List.cons.inj h).1] at hc; exact absurd hc (by decide)
    · rfl
  have hlower : c.toLower = c := by
    rw [Lexer.isBasicDigit_iff] at hc
    unfold Char.toLower
    refine dif_neg fun h => ?_
    have hupper : 65 ≤ c.toNat := h.1
    omega
  have hword : ∀ {d : Char} {word : List Char}, isBasicDigit d = false →
      String.ofList ((c :: cs).map Char.toLower) ≠ String.ofList (d :: word) := by
    intro d word hd h
    rw [String.ofList_inj, List.map_cons, hlower] at h
    rw [(List.cons.inj h).1, hd] at hc
    cases hc
  unfold plain?
  rw [hsign]
  dsimp only
  rw [if_neg, if_neg]
  · exact hword (by decide)
  · rw [Bool.or_eq_true, decide_eq_true_eq, decide_eq_true_eq, not_or]
    exact ⟨hword (by decide), hword (by decide)⟩

/-- A literal in basic digits is read as a numeral by its parts. -/
theorem IsBasic.unsigned?_text {l : Literal} (h : l.IsBasic) :
    unsigned? l.text = some (ofParts l.whole (l.fraction.getD []) 0) := by
  have hne := l.whole_ne_nil
  unfold text
  cases hfraction : l.fraction with
  | none =>
    simp [unsigned?, List.takeWhile_eq_self_iff.mpr h.1, List.dropWhile_eq_nil_iff.mpr h.1, hne,
      exponent?]
  | some digits =>
    have hdigits := h.2 digits hfraction
    have hend : Bounded isBasicDigit ('.' :: digits) := by
      rintro c ⟨⟩
      decide
    simp [unsigned?, takeWhile_run h.1 hend, dropWhile_run h.1 hend,
      List.takeWhile_eq_self_iff.mpr hdigits, List.dropWhile_eq_nil_iff.mpr hdigits, hne,
      exponent?]

/-- **The reader of numerals and that of literals agree** on literals in basic digits. -/
theorem IsBasic.plain?_text {l : Literal} (h : l.IsBasic) : plain? l.text = some l.value := by
  obtain ⟨c, more, hwhole⟩ := List.exists_cons_of_ne_nil l.whole_ne_nil
  have hc : isBasicDigit c = true := h.1 c (by rw [hwhole]; exact List.mem_cons_self)
  have htext : l.text = c :: (more ++ (l.fraction.map ('.' :: ·)).getD []) := by
    rw [text, hwhole, List.cons_append]
  have hunsigned := h.unsigned?_text
  rw [htext] at hunsigned ⊢
  rw [plain?_of_isBasicDigit hc, hunsigned]
  rfl

/-- **Every literal is a numeral of the general reader**, which reads it for its digits. -/
theorem lenient?_text (l : Literal) : lenient? (String.ofList l.text) = some l.value := by
  have hbasic := l.isBasic_basic
  have hpadding : ∀ c ∈ l.basic.text, isPadding c = false :=
    fun c hc => isPadding_of_isNumberChar (hbasic.isNumberChar c hc)
  have hunderscore : ∀ c ∈ l.basic.text, c ≠ '_' := by
    rintro c hc rfl
    exact absurd (hbasic.isNumberChar _ hc) (by decide)
  unfold lenient?
  rw [String.toList_ofList, ← text_basic, trimBy_eq_self hpadding,
    dropUnderscores?_eq hunderscore, Option.bind_some, hbasic.plain?_text, value_basic]

end Literal

/-! ## What is read at the start of a text -/

theorem readLiteral_of_ne_nil {text : String} (h : literalWhole text.toList ≠ []) :
    readLiteral text = .ok (literalValue text.toList) := by
  unfold readLiteral literal?
  rw [if_neg (by simpa using h)]

theorem readLiteral_of_eq_nil {text : String} (h : literalWhole text.toList = []) :
    readLiteral text = .error ⟨text⟩ := by
  unfold readLiteral literal?
  rw [if_pos (by rw [h]; rfl)]

/-- A text starts with a literal exactly if it starts with a digit. -/
theorem literalWhole_ne_nil_iff {cs : List Char} :
    literalWhole cs ≠ [] ↔ ∃ c ∈ cs.head?, Text.isDecimalDigit c = true := by
  cases cs with
  | nil => simp [literalWhole]
  | cons c cs => by_cases hc : Text.isDecimalDigit c = true <;> simp [literalWhole, hc]

/-- A number can be read exactly if there are digits before the point. -/
theorem exists_readLiteral_iff {text : String} :
    (∃ x, readLiteral text = .ok x) ↔ literalWhole text.toList ≠ [] := by
  refine ⟨fun ⟨x, hx⟩ hnil => ?_, fun h => ⟨_, readLiteral_of_ne_nil h⟩⟩
  rw [readLiteral_of_eq_nil hnil] at hx
  cases hx

open Literal in
/-- What is read is the value of the longest literal. -/
theorem readLiteral_of_longest {text : String} {l : Literal} (h : l.Longest text.toList) :
    readLiteral text = .ok l.value := by
  have hwhole := literalWhole_ne_nil h.isPrefix
  have htext : l.text = (ofText text.toList hwhole).text := h.text_eq (longest_ofText hwhole)
  have hvalue : some l.value = some (ofText text.toList hwhole).value := by
    rw [← lenient?_text, ← lenient?_text, htext]
  rw [readLiteral_of_ne_nil hwhole, ← value_ofText hwhole, Option.some.inj hvalue]

theorem Literal.exists_longest {cs : List Char} (h : literalWhole cs ≠ []) :
    ∃ l : Literal, l.Longest cs :=
  ⟨_, longest_ofText h⟩

open Literal in
/-- **What is read off a text** is what the lenient reader makes of its longest literal. -/
theorem readLiteral_eq_ok_iff {text : String} {x : Binary64} :
    readLiteral text = .ok x ↔
      ∃ l : Literal, l.Longest text.toList ∧ lenient? (String.ofList l.text) = some x := by
  constructor
  · intro hx
    obtain ⟨l, hl⟩ := exists_longest (exists_readLiteral_iff.mp ⟨x, hx⟩)
    rw [readLiteral_of_longest hl] at hx
    exact ⟨l, hl, by rw [lenient?_text, Except.ok.inj hx]⟩
  · rintro ⟨l, hl, hx⟩
    rw [lenient?_text] at hx
    rw [readLiteral_of_longest hl, Option.some.inj hx]

/-! ## Behind a second point -/

/-- A literal has at most one point. -/
theorem Literal.count_point_le (l : Literal) : l.text.count '.' ≤ 1 := by
  have hnone : ∀ digits : List Char, (∀ c ∈ digits, Text.isDecimalDigit c = true) →
      digits.count '.' = 0 := by
    intro digits h
    refine List.count_eq_zero_of_not_mem fun hmem => ?_
    have hpoint := h '.' hmem
    rw [isDecimalDigit_point] at hpoint
    cases hpoint
  rw [text, List.count_append, hnone _ l.isDecimalDigit_whole]
  cases hfraction : l.fraction with
  | none => exact Nat.zero_le _
  | some digits =>
    show 0 + ('.' :: digits).count '.' ≤ 1
    rw [List.count_cons_self, hnone _ (l.isDecimalDigit_fraction digits hfraction)]

/-- A literal does not reach a second point. -/
theorem Literal.isPrefix_append_iff {cs : List Char} (hpoint : '.' ∈ cs) (more : List Char)
    (l : Literal) : l.text <+: cs ++ '.' :: more ↔ l.text <+: cs := by
  refine ⟨fun h => ?_, fun h => h.trans (List.prefix_append _ _)⟩
  obtain hshort | ⟨tail, htail⟩ := List.prefix_or_prefix_of_prefix h (List.prefix_append cs _)
  · exact hshort
  · rw [← htail, List.prefix_append_right_inj] at h
    cases tail with
    | nil => exact ⟨[], (List.append_nil _).trans (htail.symm.trans (List.append_nil _))⟩
    | cons c tail =>
      -- the literal would go on with the second point
      obtain ⟨rfl, -⟩ := List.cons_prefix_cons.mp h
      have htwo := l.count_point_le
      have hone := List.count_pos_iff.mpr hpoint
      rw [← htail, List.count_append, List.count_cons_self] at htwo
      omega

/-- **What follows a second point makes no difference.** -/
theorem Literal.longest_append_iff {cs : List Char} (hpoint : '.' ∈ cs) (more : List Char)
    (l : Literal) : l.Longest (cs ++ '.' :: more) ↔ l.Longest cs := by
  have h := isPrefix_append_iff hpoint more
  exact ⟨fun hl => ⟨(h l).mp hl.isPrefix, fun other ho => hl.length_le other ((h other).mpr ho)⟩,
    fun hl => ⟨(h l).mpr hl.isPrefix, fun other ho => hl.length_le other ((h other).mp ho)⟩⟩

end Binary64

open Binary64 in
/-- **The number that is read is that of the longest literal.** A text starts with a number exactly
if it starts with a digit of some script. The number is then that of the longest literal that the
text starts with, as the general reader of numerals reads it, and this reader reads every literal.
So texts with the same longest literal give the same number, and from a second point on nothing
makes a difference. Therefore no scan ever fails because a number cannot be read: rounds that could
fail so come to the same as the scan. -/
theorem number_is_longest_literal (text : String) (s : Scanner) :
    ((∃ x, readLiteral text = .ok x) ↔ ∃ c ∈ text.toList.head?, Text.isDecimalDigit c = true) ∧
    (∀ x, readLiteral text = .ok x ↔
      ∃ l : Literal, l.Longest text.toList ∧ lenient? (String.ofList l.text) = some x) ∧
    (∀ l : Literal, ∃ x, lenient? (String.ofList l.text) = some x) ∧
    (∀ (other : String) (l l' : Literal), l.Longest text.toList → l'.Longest other.toList →
      l.text = l'.text → readLiteral other = readLiteral text) ∧
    (∀ more : String, '.' ∈ text.toList → ∀ x,
      readLiteral (text ++ "." ++ more) = .ok x ↔ readLiteral text = .ok x) ∧
    (∀ e, s.reset.rounds.1 ≠ .error (.notNumeric e)) ∧
    s.reset.rounds = (s.tokenize.1.mapError .unexpected, s.tokenize.2) := by
  refine ⟨exists_readLiteral_iff.trans literalWhole_ne_nil_iff, fun x => readLiteral_eq_ok_iff,
    fun l => ⟨_, l.lenient?_text⟩, ?_, ?_, ?_, s.tokenize_eq_rounds⟩
  · intro other l l' hl hl' htext
    have hvalue : some l'.value = some l.value := by
      rw [← Literal.lenient?_text, ← Literal.lenient?_text, htext]
    rw [readLiteral_of_longest hl, readLiteral_of_longest hl', Option.some.inj hvalue]
  · intro more hpoint x
    have happend : (text ++ "." ++ more).toList = text.toList ++ '.' :: more.toList := by simp
    simp only [readLiteral_eq_ok_iff, happend, Literal.longest_append_iff hpoint]
  · intro e
    rw [s.tokenize_eq_rounds]
    cases s.tokenize.1 <;> simp [Except.mapError]

/-- Twelve and three tenths, in the digits of two scripts. -/
def mixedDigits : String := "1२.३"

open Binary64 in
/-- The literal that they are. -/
def mixedLiteral : Literal := .ofText mixedDigits.toList (by decide)

open Binary64 in
/-- Neither an exponent nor a second point makes a difference to them. -/
theorem mixedDigits_are_longest_literal :
    mixedLiteral.Longest mixedDigits.toList ∧ '.' ∈ mixedDigits.toList ∧
    readLiteral "1२.३e5" = readLiteral mixedDigits ∧
    readLiteral (mixedDigits ++ "." ++ "4") = .ok ((⟨123, -1⟩ : Decimal).toBinary64 false) := by
  have hlongest : mixedLiteral.Longest mixedDigits.toList := Literal.longest_ofText (by decide)
  have hexponent : literalWhole "1२.३e5".toList ≠ [] := by decide
  have hpoint : '.' ∈ mixedDigits.toList := by decide
  obtain ⟨-, hvalue, -, hsame, hsecond, -⟩ :=
    number_is_longest_literal mixedDigits (.ofSource mixedDigits)
  refine ⟨hlongest, hpoint, hsame _ mixedLiteral (.ofText _ hexponent) hlongest
    (Literal.longest_ofText hexponent) rfl, (hsecond "4" hpoint _).mpr ?_⟩
  exact (hvalue _).mpr ⟨mixedLiteral, hlongest, mixedLiteral.lenient?_text⟩

end CallScript
