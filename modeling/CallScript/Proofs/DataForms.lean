import CallScript.Document.Json
import CallScript.Scalar
import Mathlib.Data.List.Basic

/-!
# What data forms tell

A text as data stands between double quotes, and what could end it or break the line is escaped. One
character is written in one of three ways (`Text.dataChar_cases`): by a backslash and a letter, by
its code, or as it is. Hence the data form of any text holds no line feed, and the reader of JSON
documents reads back the text and stops right behind the closing quote (`Json.textBody?_escaped`).

A number as data is written as it is displayed, but for the names of the special values. Finite
numbers are written with digits, signs, points and exponents only
(`Binary64.isNumeralChar_of_mem_signed`), and each name has a character besides these. So the names
do not matter for which numbers are told apart: two numbers have one data form exactly if they have
one display form (`Binary64.data_eq_iff`).
-/

namespace CallScript

/-! ## Texts -/

theorem Json.hexValue?_hexDigits : ∀ n < 0x20,
    hexValue? (Text.hexDigits 4 n) = some n ∧ (Text.hexDigits 4 n).length = 4 ∧
      '\n' ∉ Text.hexDigits 4 n := by decide

namespace Text

open Json

/-- **How one character is written**: by an escape of one letter, as it is, or by its code. -/
theorem dataChar_cases (c : Char) :
    (∃ d, dataChar c = ['\\', d] ∧ simpleEscape? d = some c) ∨
    (dataChar c = [c] ∧ c ≠ '"' ∧ c ≠ '\\' ∧ ¬ c.toNat < 0x20) ∨
    (dataChar c = '\\' :: 'u' :: hexDigits 4 c.toNat ∧ c.toNat < 0x20) := by
  by_cases hquote : c = '"'
  · exact .inl ⟨'"', by rw [hquote]; rfl, by rw [hquote]; rfl⟩
  by_cases hbackslash : c = '\\'
  · exact .inl ⟨'\\', by rw [hbackslash]; rfl, by rw [hbackslash]; rfl⟩
  rw [dataChar, if_neg (by simp [hquote, hbackslash])]
  -- five of the controls have a letter of their own
  by_cases hn : c = '\n'
  · exact .inl ⟨'n', by rw [if_pos hn], by rw [hn]; rfl⟩
  by_cases hr : c = '\r'
  · exact .inl ⟨'r', by rw [if_neg hn, if_pos hr], by rw [hr]; rfl⟩
  by_cases ht : c = '\t'
  · exact .inl ⟨'t', by rw [if_neg hn, if_neg hr, if_pos ht], by rw [ht]; rfl⟩
  rw [if_neg hn, if_neg hr, if_neg ht]
  by_cases hb : c = Char.ofNat 8
  · exact .inl ⟨'b', by rw [if_pos hb], by rw [hb]; rfl⟩
  by_cases hf : c = Char.ofNat 12
  · exact .inl ⟨'f', by rw [if_neg hb, if_pos hf], by rw [hf]; rfl⟩
  rw [if_neg hb, if_neg hf]
  by_cases hcontrol : c.toNat < 0x20
  · exact .inr (.inr ⟨if_pos hcontrol, hcontrol⟩)
  · exact .inr (.inl ⟨if_neg hcontrol, hquote, hbackslash, hcontrol⟩)

theorem lineFeed_not_mem_dataChar (c : Char) : '\n' ∉ dataChar c := by
  obtain ⟨d, hdata, hescape⟩ | ⟨hdata, -, -, hcontrol⟩ | ⟨hdata, hcontrol⟩ := dataChar_cases c
  · have hd : d ≠ '\n' := by
      rintro rfl
      cases hescape
    simp [hdata, hd.symm]
  · have hc : c ≠ '\n' := by
      rintro rfl
      exact hcontrol (by decide)
    simp [hdata, hc.symm]
  · simp [hdata, (hexValue?_hexDigits _ hcontrol).2.2]

/-- **The data form of a text is in one line.** -/
theorem lineFeed_not_mem_data (s : String) : '\n' ∉ (data s).toList := by
  have hescaped : '\n' ∉ s.toList.flatMap dataChar := by
    intro h
    obtain ⟨c, -, hc⟩ := List.mem_flatMap.mp h
    exact lineFeed_not_mem_dataChar c hc
  simp [data, hescaped]

end Text

namespace Json

/-- An escape by a code below the space, whatever follows: two such codes are never a pair. -/
theorem textBody?_code {a b c d : Char} {n : Nat} (h : hexValue? [a, b, c, d] = some n)
    (hn : n < 0x20) (rest : List Char) :
    textBody? ('\\' :: 'u' :: a :: b :: c :: d :: rest)
      = (textBody? rest).map fun r => (Char.ofNat n :: r.1, r.2) := by
  have hhigh : isHighSurrogate n = false := by
    simp [isHighSurrogate]
    omega
  have hlow : isLowSurrogate n = false := by
    simp [isLowSurrogate]
    omega
  have hunit : charOfUnit n = Char.ofNat n := by simp [charOfUnit, hhigh, hlow]
  -- a code that no second one follows is read by itself
  have halone : ∀ {a b c d : Char} {rest : List Char},
      (∀ e f g k more, rest ≠ '\\' :: 'u' :: e :: f :: g :: k :: more) →
      textBody? ('\\' :: 'u' :: a :: b :: c :: d :: rest) = (hexValue? [a, b, c, d]).bind
        fun n => (textBody? rest).map fun r => (charOfUnit n :: r.1, r.2) := by
    intro a b c d rest hrest
    rw [textBody?.eq_4 _ _ _ _ _ hrest]
    cases hexValue? [a, b, c, d] <;> rfl
  by_cases hrest : ∃ e f g k more, rest = '\\' :: 'u' :: e :: f :: g :: k :: more
  · obtain ⟨e, f, g, k, more, rfl⟩ := hrest
    rw [textBody?.eq_3, h]
    cases hsecond : hexValue? [e, f, g, k] with
    | some low => simp [hhigh, hunit]
    | none =>
      by_cases hmore : ∃ e f g k rest, more = '\\' :: 'u' :: e :: f :: g :: k :: rest
      · obtain ⟨e', f', g', k', rest, rfl⟩ := hmore
        rw [textBody?.eq_3, hsecond]
        rfl
      · rw [halone fun e f g k rest h => hmore ⟨e, f, g, k, rest, h⟩, hsecond]
        rfl
  · rw [halone fun e f g k more h => hrest ⟨e, f, g, k, more, h⟩, h, Option.bind_some, hunit]

/-- **An escaped character is read back**, whatever follows it. -/
theorem textBody?_dataChar (c : Char) (rest : List Char) :
    textBody? (Text.dataChar c ++ rest) = (textBody? rest).map fun r => (c :: r.1, r.2) := by
  obtain ⟨d, hdata, hescape⟩ | ⟨hdata, hquote, hbackslash, hcontrol⟩ | ⟨hdata, hcontrol⟩ :=
    Text.dataChar_cases c
  · have hd : d ≠ 'u' := by
      rintro rfl
      cases hescape
    rw [hdata]
    show textBody? ('\\' :: d :: rest) = _
    rw [textBody?.eq_5 _ _ (fun _ _ _ _ _ _ _ _ _ h => absurd h hd)
      (fun _ _ _ _ _ h => absurd h hd), hescape]
  · rw [hdata]
    show textBody? (c :: rest) = _
    rw [textBody?.eq_6 _ _ hquote (fun _ _ _ _ _ _ _ _ _ h => absurd h hbackslash)
      (fun _ _ _ _ _ h => absurd h hbackslash) (fun _ _ h => absurd h hbackslash)]
    simp [hcontrol, hbackslash]
  · obtain ⟨hvalue, hlength, -⟩ := hexValue?_hexDigits c.toNat hcontrol
    rw [hdata]
    obtain ⟨a, b, d, e, hdigits⟩ : ∃ a b d e, Text.hexDigits 4 c.toNat = [a, b, d, e] := by
      match Text.hexDigits 4 c.toNat, hlength with
      | [a, b, d, e], _ => exact ⟨a, b, d, e, rfl⟩
    rw [hdigits] at hvalue ⊢
    have hread := textBody?_code hvalue hcontrol rest
    rwa [Char.ofNat_toNat] at hread

/-- **An escaped text is read back**, up to the quote that closes it. -/
theorem textBody?_escaped (cs rest : List Char) :
    textBody? (cs.flatMap Text.dataChar ++ '"' :: rest) = some (cs, rest) := by
  induction cs with
  | nil => simp [textBody?]
  | cons c cs ih =>
    rw [List.flatMap_cons, List.append_assoc, textBody?_dataChar, ih]
    rfl

end Json

/-- **The data form of a text tells the text and its own end.** -/
theorem Text.eq_of_data_append {s t : String} {rest rest' : List Char}
    (h : (data s).toList ++ rest = (data t).toList ++ rest') : s = t ∧ rest = rest' := by
  unfold data at h
  simp only [String.toList_ofList, List.cons_append, List.append_assoc,
    List.cons.injEq, true_and] at h
  have hread := congrArg Json.textBody? h
  rw [Json.textBody?_escaped, Json.textBody?_escaped, Option.some_inj, Prod.mk.injEq,
    String.toList_inj] at hread
  exact hread

/-! ## Numbers -/

namespace Binary64

/-- The characters that finite numbers are written with. -/
def isNumeralChar (c : Char) : Bool := c.isDigit || ['.', 'e', '+', '-'].contains c

theorem isNumeralChar_of_mem_toDigits (n : Nat) :
    ∀ c ∈ Nat.toDigits 10 n, isNumeralChar c = true := by
  intro c hc
  rw [isNumeralChar, Nat.isDigit_of_mem_toDigits (by decide) (by decide) hc]
  rfl

theorem isNumeralChar_of_mem_zeros (n : Nat) :
    ∀ c ∈ List.replicate n '0', isNumeralChar c = true := by
  intro c hc
  rw [List.eq_of_mem_replicate hc]
  rfl

theorem isNumeralChar_of_mem_significant (d : Decimal) :
    ∀ c ∈ (significant d).1, isNumeralChar c = true := by
  intro c hc
  have hmem := (List.dropWhile_sublist _).mem (List.mem_reverse.mp hc)
  exact isNumeralChar_of_mem_toDigits _ c (List.mem_reverse.mp hmem)

theorem isNumeralChar_of_mem_positional {digits : List Char}
    (h : ∀ c ∈ digits, isNumeralChar c = true) (point : Int) :
    ∀ c ∈ positional digits point, isNumeralChar c = true := by
  unfold positional
  split
  · refine List.forall_mem_cons.mpr ⟨rfl, List.forall_mem_cons.mpr ⟨rfl, ?_⟩⟩
    exact List.forall_mem_append.mpr ⟨isNumeralChar_of_mem_zeros _, h⟩
  · dsimp only
    split
    · refine List.forall_mem_append.mpr
        ⟨List.forall_mem_append.mpr ⟨h, isNumeralChar_of_mem_zeros _⟩, ?_⟩
      simp [isNumeralChar]
    · refine List.forall_mem_append.mpr ⟨fun c hc => h c (List.mem_of_mem_take hc), ?_⟩
      exact List.forall_mem_cons.mpr ⟨rfl, fun c hc => h c (List.mem_of_mem_drop hc)⟩

theorem isNumeralChar_of_mem_scientific {digits : List Char}
    (h : ∀ c ∈ digits, isNumeralChar c = true) (point : Int) :
    ∀ c ∈ scientific digits point, isNumeralChar c = true := by
  have hfraction : ∀ c ∈ (if 1 < digits.length then '.' :: digits.drop 1 else []),
      isNumeralChar c = true := by
    split
    · exact List.forall_mem_cons.mpr ⟨rfl, fun c hc => h c (List.mem_of_mem_drop hc)⟩
    · simp
  have hsign : isNumeralChar (if point - 1 < 0 then '-' else '+') = true := by split <;> rfl
  unfold scientific
  refine List.forall_mem_append.mpr ⟨List.forall_mem_append.mpr
    ⟨fun c hc => h c (List.mem_of_mem_take hc), hfraction⟩, ?_⟩
  refine List.forall_mem_cons.mpr ⟨rfl, List.forall_mem_cons.mpr ⟨hsign, ?_⟩⟩
  exact List.forall_mem_append.mpr
    ⟨isNumeralChar_of_mem_zeros _, isNumeralChar_of_mem_toDigits _⟩

theorem isNumeralChar_of_mem_magnitudeText (units : Nat) :
    ∀ c ∈ magnitudeText units, isNumeralChar c = true := by
  have hdigits := isNumeralChar_of_mem_significant (Decimal.shortest units)
  rw [magnitudeText]
  split
  · simp [isNumeralChar]
  · dsimp only
    split
    · exact isNumeralChar_of_mem_positional hdigits _
    · exact isNumeralChar_of_mem_scientific hdigits _

theorem isNumeralChar_of_mem_signed (negative : Bool) (units : Nat) :
    ∀ c ∈ signed negative (magnitudeText units), isNumeralChar c = true := by
  have hmagnitude := isNumeralChar_of_mem_magnitudeText units
  unfold signed
  split
  · exact List.forall_mem_cons.mpr ⟨rfl, hmagnitude⟩
  · exact hmagnitude

/-- The characters that numbers are written with as data. -/
def isDataChar (c : Char) : Bool := isNumeralChar c || "InfinityNaN".toList.contains c

theorem isDataChar_of_mem_data (x : Binary64) : ∀ c ∈ x.data.toList, isDataChar c = true := by
  cases x with
  | nan =>
    show ∀ c ∈ "NaN".toList, isDataChar c = true
    exact List.all_eq_true.mp rfl
  | infinite negative =>
    have hnames : ∀ negative, (signed negative "Infinity".toList).all isDataChar = true := by decide
    rw [data, written, String.toList_ofList]
    exact List.all_eq_true.mp (hnames negative)
  | finite negative units magnitude =>
    intro c hc
    rw [data, written, String.toList_ofList] at hc
    rw [isDataChar, isNumeralChar_of_mem_signed negative units c hc, Bool.true_or]

/-- **Numbers that are written alike**, whatever the special values are called. -/
inductive WrittenAlike : Binary64 → Binary64 → Prop
  | nan : WrittenAlike .nan .nan
  | infinite (negative : Bool) : WrittenAlike (.infinite negative) (.infinite negative)
  | finite {negative negative' : Bool} {units units' : Nat} {magnitude : IsMagnitude units}
      {magnitude' : IsMagnitude units'}
      (h : signed negative (magnitudeText units) = signed negative' (magnitudeText units')) :
      WrittenAlike (.finite negative units magnitude) (.finite negative' units' magnitude')

/-- Whether a number is finite. -/
def isFinite : Binary64 → Bool
  | .finite _ _ _ => true
  | _ => false

/-- **Names that tell the special values apart**, from each other and from all finite numbers. -/
structure Telling (infinity notANumber : String) : Prop where
  infinite : ∀ negative, (signed negative infinity.toList).all isNumeralChar = false
  nan : notANumber.toList.all isNumeralChar = false
  apart : ∀ negative, signed negative infinity.toList ≠ notANumber.toList

theorem telling_data : Telling "Infinity" "NaN" := ⟨by decide, by decide, by decide⟩

theorem telling_display : Telling "inf" "nan" := ⟨by decide, by decide, by decide⟩

variable {infinity notANumber : String}

theorem Telling.all_written (h : Telling infinity notANumber) (x : Binary64) :
    (written infinity notANumber x).toList.all isNumeralChar = x.isFinite := by
  cases x with
  | nan => exact h.nan
  | infinite negative =>
    rw [written, String.toList_ofList]
    exact h.infinite negative
  | finite negative units magnitude =>
    rw [written, String.toList_ofList, List.all_eq_true.mpr (isNumeralChar_of_mem_signed _ _)]
    rfl

theorem eq_of_signed_eq {negative negative' : Bool} {text : List Char}
    (h : signed negative text = signed negative' text) : negative = negative' := by
  have hlength := congrArg List.length h
  unfold signed at hlength
  cases negative <;> cases negative' <;> simp at hlength ⊢

/-- Names that tell the special values apart make no difference to which numbers are told apart. -/
theorem Telling.written_eq_iff (h : Telling infinity notANumber) (x y : Binary64) :
    written infinity notANumber x = written infinity notANumber y ↔ WrittenAlike x y := by
  constructor
  · intro heq
    -- only finite numbers are written in the characters of numerals throughout
    have hfinite : x.isFinite = y.isFinite := by rw [← h.all_written x, heq, h.all_written y]
    rw [← String.toList_inj] at heq
    cases x with
    | nan =>
      cases y with
      | nan => exact .nan
      | infinite negative' =>
        rw [written, written, String.toList_ofList] at heq
        exact absurd heq.symm (h.apart negative')
      | finite negative' units' magnitude' => cases hfinite
    | infinite negative =>
      cases y with
      | nan =>
        rw [written, written, String.toList_ofList] at heq
        exact absurd heq (h.apart negative)
      | infinite negative' =>
        rw [written, written, String.toList_ofList, String.toList_ofList] at heq
        exact eq_of_signed_eq heq ▸ .infinite negative
      | finite negative' units' magnitude' => cases hfinite
    | finite negative units magnitude =>
      cases y with
      | nan => cases hfinite
      | infinite negative' => cases hfinite
      | finite negative' units' magnitude' =>
        rw [written, written, String.toList_ofList, String.toList_ofList] at heq
        exact .finite heq
  · intro halike
    cases halike with
    | nan => rfl
    | infinite negative => rfl
    | finite heq =>
      rw [written, written]
      exact congrArg String.ofList heq

/-- **Two numbers have one data form exactly if they have one display form.** -/
theorem data_eq_iff {x y : Binary64} : x.data = y.data ↔ x.display = y.display :=
  (telling_data.written_eq_iff x y).trans (telling_display.written_eq_iff x y).symm

end Binary64

end CallScript
