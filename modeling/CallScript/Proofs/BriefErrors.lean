import CallScript.Proofs.LogProtocol

/-!
# Errors in brief

A report shows an error by its brief form, which is meant to be one line. The brief form of an error
of a script is the first line of its text, and since every detail line stands behind a line break it
is the first line of the head alone (`ScriptError.firstLine_text`). The head starts with a bracket
or with a place, and so the line is not empty, whatever the message, the place and the code are.

An error of the embedding program's own making is not cut: its brief form is its kind with its whole
text, and has as many lines as these have (`ForeignError.unbroken_brief_iff`).

Neither form need exist. What an error shows may be any value, and some values cannot be written
(`Value.isWritable`). An error of a script has a text exactly if what its head shows can be written
and its details can be told (`ScriptError.exists_text_iff_told`, `Cause.Told`), and an error of the
embedding program if the arguments it shows can be written (`ForeignError.exists_text_iff`).
-/

namespace CallScript

open Text (Unbroken unbroken_append)

variable {methodsOf : Nat → List Scalar}

/-! ## Lines of a text -/

namespace Text

/-- The characters that end a line, one by one. -/
def lineBreaks : List Char :=
  ['\n', Char.ofNat 0xb, Char.ofNat 0xc, '\r', Char.ofNat 0x1c, Char.ofNat 0x1d, Char.ofNat 0x1e,
    Char.ofNat 0x85, Char.ofNat 0x2028, Char.ofNat 0x2029]

theorem isLineBreak_iff {c : Char} : isLineBreak c = true ↔ c ∈ lineBreaks := by
  have hbreaks : ∀ c ∈ lineBreaks, isLineBreak c = true := List.all_eq_true.mp (by decide)
  refine ⟨fun h => ?_, hbreaks c⟩
  have hcodes : lineBreaks.map Char.toNat
      = [0xa, 0xb, 0xc, 0xd, 0x1c, 0x1d, 0x1e, 0x85, 0x2028, 0x2029] := by decide
  have hcode : c.toNat ∈ lineBreaks.map Char.toNat := by
    unfold isLineBreak inRanges at h
    simp only [List.any_cons, List.any_nil, Bool.or_false, Bool.or_eq_true, Bool.and_eq_true,
      decide_eq_true_eq] at h
    rw [hcodes]
    simp only [List.mem_cons, List.not_mem_nil, or_false]
    omega
  obtain ⟨d, hd, hcd⟩ := List.mem_map.mp hcode
  exact Char.toNat_inj.mp hcd ▸ hd

theorem unbroken_iff {s : String} : Unbroken s ↔ ∀ c ∈ lineBreaks, c ∉ s.toList := by
  unfold Unbroken
  simp only [List.all_eq_true, Bool.not_eq_true', ← isLineBreak_iff]
  constructor
  · intro h c hc hmem
    rw [h c hmem] at hc
    cases hc
  · intro h c hmem
    exact Bool.eq_false_iff.mpr fun hc => h c hc hmem

/-- **The lines of a text.** A carriage return and the line feed behind it are one line break, and a
line break at the end starts no further line. -/
def splitLines : List Char → List (List Char)
  | [] => []
  | '\r' :: '\n' :: cs => [] :: splitLines cs
  | c :: cs =>
    if isLineBreak c then [] :: splitLines cs
    else
      match splitLines cs with
      | [] => [[c]]
      | line :: lines => (c :: line) :: lines

theorem splitLines_ne_nil {cs : List Char} (h : cs ≠ []) : splitLines cs ≠ [] := by
  fun_cases splitLines cs <;> simp_all

/-- **The first line of a text is the first of its lines.** -/
theorem head?_splitLines {cs : List Char} (h : cs ≠ []) :
    (splitLines cs).head? = some (cs.takeWhile (!isLineBreak ·)) := by
  fun_induction splitLines cs with
  | case1 => exact absurd rfl h
  | case2 cs ih =>
    rw [List.takeWhile_cons_of_neg (by decide)]
    rfl
  | case3 c cs _ hc ih =>
    rw [List.takeWhile_cons_of_neg (by simp [hc])]
    rfl
  | case4 c cs _ hc hlines ih =>
    -- only the empty text has no lines
    obtain rfl : cs = [] := by
      by_contra hcs
      exact splitLines_ne_nil hcs hlines
    rw [List.takeWhile_cons_of_pos (by simp [hc])]
    rfl
  | case5 c cs _ hc line lines hlines ih =>
    have hcs : cs ≠ [] := by
      rintro rfl
      cases hlines
    have hline := ih hcs
    rw [hlines] at hline
    obtain rfl := Option.some.inj hline
    rw [List.takeWhile_cons_of_pos (by simp [hc])]
    rfl

theorem head?_splitLines_toList {s : String} (h : s.toList ≠ []) :
    (splitLines s.toList).head? = some (firstLine s).toList := by
  rw [head?_splitLines h, firstLine, String.toList_ofList]

theorem firstLine_ne_empty {s : String} {c : Char} {cs : List Char} (hs : s.toList = c :: cs)
    (hc : isLineBreak c = false) : firstLine s ≠ "" := by
  unfold firstLine
  rw [hs, List.takeWhile_cons_of_pos (by simp [hc])]
  intro h
  have hlist := congrArg String.toList h
  rw [String.toList_ofList] at hlist
  cases hlist

theorem unbroken_firstLine (s : String) : Unbroken (firstLine s) := by
  refine unbroken_ofList.mpr fun c hc => ?_
  simpa using List.mem_takeWhile_imp hc

/-- **Lines behind the first line break add nothing to the first line.** -/
theorem firstLine_append_join (s : String) (lines : List String) :
    firstLine (s ++ String.join (lines.map ("\n  " ++ ·))) = firstLine s := by
  have hjoin := congrArg String.toList (firstLine_join lines)
  unfold firstLine at hjoin ⊢
  rw [String.toList_ofList] at hjoin
  rw [String.toList_append, List.takeWhile_append, hjoin]
  split
  · next hlength =>
    -- the text has no line break, so its first line is all of it
    rw [(List.takeWhile_sublist _).eq_of_length hlength]
    exact congrArg String.ofList (List.append_nil _)
  · rfl

end Text

/-! ## Errors of a script -/

namespace ScriptError

/-- The head of an error starts with its place or with a bracket. -/
theorem exists_cons_head {e : ScriptError} {head : String} (h : e.head methodsOf = .ok head) :
    ∃ c cs, head.toList = c :: cs ∧ Text.isLineBreak c = false := by
  obtain ⟨place, hplace, h⟩ := bind_eq_ok_iff.mp h
  obtain ⟨code, -, h⟩ := bind_eq_ok_iff.mp h
  obtain ⟨message, -, h⟩ := bind_eq_ok_iff.mp h
  obtain rfl := Except.ok.inj h
  unfold ScriptError.place at hplace
  split at hplace
  · obtain rfl := Except.ok.inj hplace
    exact ⟨'[', _, by simp; rfl, rfl⟩
  · obtain ⟨line, -, hplace⟩ := bind_eq_ok_iff.mp hplace
    split at hplace
    · obtain rfl := Except.ok.inj hplace
      exact ⟨'L', _, by simp; rfl, rfl⟩
    · obtain ⟨column, -, hplace⟩ := bind_eq_ok_iff.mp hplace
      obtain rfl := Except.ok.inj hplace
      exact ⟨'L', _, by simp; rfl, rfl⟩

/-- **The first line of the text of an error is that of its head.** -/
theorem firstLine_text {e : ScriptError} {text : String} (h : e.text methodsOf = .ok text) :
    ∃ (head : String) (lines : List String), e.head methodsOf = .ok head ∧
      text = head ++ String.join (lines.map ("\n  " ++ ·)) ∧
      Text.firstLine text = Text.firstLine head := by
  obtain ⟨head, hhead, h⟩ := bind_eq_ok_iff.mp h
  obtain ⟨lines, -, h⟩ := bind_eq_ok_iff.mp h
  obtain rfl := Except.ok.inj h
  exact ⟨head, lines, hhead, rfl, Text.firstLine_append_join head lines⟩

end ScriptError

/-! ## Errors of the embedding program -/

namespace ForeignError

theorem brief_ne_empty {e : ForeignError} {brief : String} (h : e.brief methodsOf = .ok brief) :
    brief ≠ "" := by
  obtain ⟨text, -, rfl⟩ := map_eq_ok_iff.mp h
  intro hempty
  have hlength := congrArg (fun s : String => s.toList.length) hempty
  simp at hlength

/-- **The brief form of such an error is one line exactly if its kind and its text are.** -/
theorem unbroken_brief_iff (kind text : String) :
    Unbroken (kind ++ ": " ++ (if text = "" then kind else text)) ↔
      Unbroken kind ∧ Unbroken text := by
  rw [unbroken_append, unbroken_append]
  split
  · next hempty =>
    rw [hempty]
    exact ⟨fun h => ⟨h.2, by decide⟩, fun h => ⟨⟨h.1, by decide⟩, h.1⟩⟩
  · exact ⟨fun h => ⟨h.1.1, h.2⟩, fun h => ⟨⟨h.1, by decide⟩, h.2⟩⟩

end ForeignError

/-! ## What a report shows -/

/-- **A line of an error**: it is not empty and has no line break, and it is the first line of the
text of the error and also of the head alone, so no detail line is in it. -/
structure BriefLine (head text line : String) : Prop where
  ne_empty : line ≠ ""
  unbroken : ∀ c ∈ Text.lineBreaks, c ∉ line.toList
  ofText : (Text.splitLines text.toList).head? = some line.toList
  ofHead : (Text.splitLines head.toList).head? = some line.toList

/-- An error that has a text has a head, and its brief form is the first line of both. -/
theorem ScriptError.exists_firstLine {e : ScriptError} {text : String}
    (htext : e.text methodsOf = .ok text) :
    ∃ head line, e.head methodsOf = .ok head ∧ e.brief methodsOf = .ok line ∧
      BriefLine head text line := by
  obtain ⟨head, lines, hhead, rfl, hline⟩ := firstLine_text htext
  obtain ⟨c, cs, hcons, hc⟩ := exists_cons_head hhead
  have hnonempty : head.toList ≠ [] := by
    rw [hcons]
    exact List.cons_ne_nil c cs
  have hbrief : e.brief methodsOf = .ok (Text.firstLine head) := by
    rw [brief, htext, ← hline]
    rfl
  refine ⟨head, Text.firstLine head, hhead, hbrief, Text.firstLine_ne_empty hcons hc,
    Text.unbroken_iff.mp (Text.unbroken_firstLine head), ?_, Text.head?_splitLines_toList hnonempty⟩
  rw [← hline]
  refine Text.head?_splitLines_toList ?_
  rw [String.toList_append]
  exact List.append_ne_nil_of_left_ne_nil hnonempty _

/-- **The brief form of an error.** That of an error of a script is a line that is not empty, namely
the first line of the text of the error, and also the first line of the head alone, so no detail
line is in it. There is one exactly if the error has a text: what its head shows can be written, and
its details can be told. If there is none, asking for it raises what asking for the text does.

The brief form of an error of the embedding program's own making is its kind with its text. That is
not empty either, but it is one line only if the kind and the text are. There is one exactly if the
arguments that the text shows can be written. -/
theorem brief_is_first_line_unless_foreign (s : Session) :
    (∀ e : ScriptError,
      ((∃ text, e.text s.methodsOf = .ok text) ↔
        (∀ v ∈ e.headFacts, v.isWritable = true) ∧ e.cause.Told s.methodsOf) ∧
      (∀ err, e.text s.methodsOf = .error err →
        Raised.brief s.methodsOf (.script e) = .error err) ∧
      ∀ text, e.text s.methodsOf = .ok text → ∃ head line, e.head s.methodsOf = .ok head ∧
        Raised.brief s.methodsOf (.script e) = .ok line ∧ BriefLine head text line) ∧
    ∀ e : ForeignError,
      ((∃ text, e.text s.methodsOf = .ok text) ↔ ∀ v ∈ e.shownArguments, v.isWritable = true) ∧
      (∀ err, e.text s.methodsOf = .error err →
        Raised.brief s.methodsOf (.foreign e) = .error err) ∧
      ∀ text, e.text s.methodsOf = .ok text →
        ∃ brief, Raised.brief s.methodsOf (.foreign e) = .ok brief ∧ brief ≠ "" ∧
          brief = e.kind ++ ": " ++ (if text = "" then e.kind else text) ∧
          ((∀ c ∈ Text.lineBreaks, c ∉ brief.toList) ↔
            ∀ c ∈ Text.lineBreaks, c ∉ e.kind.toList ∧ c ∉ text.toList) := by
  refine ⟨fun e => ⟨e.exists_text_iff_told s.shortNames, fun err herr => ?_, fun text htext => ?_⟩,
    fun e => ⟨e.exists_text_iff s.shortNames, fun err herr => ?_, fun text htext => ?_⟩⟩
  · show (e.text s.methodsOf).map Text.firstLine = .error err
    rw [herr]
    rfl
  · exact ScriptError.exists_firstLine htext
  · show (e.text s.methodsOf).map _ = .error err
    rw [herr]
    rfl
  · have hbrief : e.brief s.methodsOf
        = .ok (e.kind ++ ": " ++ (if text = "" then e.kind else text)) := by
      rw [ForeignError.brief, htext]
      rfl
    refine ⟨_, hbrief, ForeignError.brief_ne_empty hbrief, rfl, ?_⟩
    rw [← Text.unbroken_iff, ForeignError.unbroken_brief_iff, Text.unbroken_iff, Text.unbroken_iff]
    exact forall₂_and.symm

/-- An error about a missing variable with a message of two lines, which lists a name of two lines
among its first five, and behind them a number. -/
def twoLineError : ScriptError where
  cause := .undefinedVariable (.text "x")
    (.list [.text "a\nb", .text "c", .text "d", .text "e", .text "f", .int 6])
  message := .text "two\r\nlines"
  line := .int 3

/-- Its brief form is the start of the message. -/
theorem brief_twoLineError :
    (∀ v ∈ twoLineError.headFacts, v.isWritable = true) ∧
    twoLineError.cause.Told ({} : Session).methodsOf ∧
    Raised.brief ({} : Session).methodsOf (.script twoLineError)
      = .ok "Line 3 | [UNDEFINED_VARIABLE] two" := by
  have hthree : Value.isLong (.int 3) = false := by decide +kernel
  have hfacts : ∀ v ∈ twoLineError.headFacts, v.isWritable = true := by
    show ∀ v ∈ [Value.int 3, .text "UNDEFINED_VARIABLE", .text "two\r\nlines"], v.isWritable = true
    simp [Value.isWritable, Value.isLong_of_text, Scalar.text?, hthree]
  have htold : twoLineError.cause.Told ({} : Session).methodsOf := fun _ =>
    ⟨_, rfl, _, rfl, by simp [Cause.listedNames, Value.text?, Scalar.text?]⟩
  refine ⟨hfacts, htold, ?_⟩
  obtain ⟨htexts, -, hbrief⟩ := (brief_is_first_line_unless_foreign {}).1 twoLineError
  obtain ⟨text, htext⟩ := htexts.mpr ⟨hfacts, htold⟩
  obtain ⟨head, line, hhead, hline, hfirst⟩ := hbrief text htext
  have hplace : twoLineError.head ({} : Session).methodsOf
      = .ok "Line 3 | [UNDEFINED_VARIABLE] two\r\nlines" := by
    have hnumber : (Value.int 3).plain ({} : Session).methodsOf = .ok "3" :=
      Value.written_of_short hthree _
    show ((Value.int 3).plain ({} : Session).methodsOf >>= fun line => _) >>= _ = _
    rw [hnumber]
    rfl
  obtain rfl := Except.ok.inj (hhead.symm.trans hplace)
  have hcut : (Text.splitLines "Line 3 | [UNDEFINED_VARIABLE] two\r\nlines".toList).head?
      = some "Line 3 | [UNDEFINED_VARIABLE] two".toList := by decide +kernel
  rw [hline, String.toList_inj.mp (Option.some.inj (hcut.symm.trans hfirst.ofHead))]

/-- An error of the embedding program with a text of two lines stays in two lines. -/
theorem brief_wrongValue_in_two_lines :
    Raised.brief Value.noRegistries (.foreign (.wrongValue "a\nb")) = .ok "ValueError: a\nb" ∧
    '\n' ∈ Text.lineBreaks ∧ '\n' ∈ "ValueError: a\nb".toList := by
  refine ⟨?_, by decide, by decide⟩
  exact congrArg Except.ok (show "ValueError" ++ ": " ++ (if "a\nb" = "" then _ else "a\nb")
    = "ValueError: a\nb" by decide +kernel)

end CallScript
