import CallScript.Proofs.Writability

/-!
# Errors that have a text

What an error shows may be any value, and some values cannot be written (`Value.isWritable`), so an
error need not have a text. An error of a script has one exactly if what its head shows can be
written and its details can be told (`ScriptError.exists_text_iff_told`). What details can be told
depends on the cause (`Cause.Told`): names that are listed have to be texts, and what was expected
and found has to be writable if it is mentioned at all. An error of the embedding program has a text
exactly if the arguments that it shows can be written (`ForeignError.exists_text_iff`).
-/

namespace CallScript

variable {methodsOf : Nat → List Scalar}

/-! ## Errors of a script -/

/-- A value whose items are texts, so that they can be joined. -/
def Value.JoinsTexts (v : Value) : Prop :=
  ∃ items, v.items? = some items ∧ ∀ item ∈ items, item.text?.isSome = true

/-- A value can be joined exactly if its items are texts. -/
theorem Value.exists_joined_iff {v : Value} : (∃ text, v.joined = .ok text) ↔ v.JoinsTexts := by
  unfold joined JoinsTexts
  cases v.items? with
  | none => simp
  | some items => simp [exists_map_eq_ok_iff, exists_itemTexts_iff]

theorem Value.joinsTexts_list {items : List Value} :
    (Value.list items).JoinsTexts ↔ ∀ item ∈ items, item.text?.isSome = true := by
  constructor
  · rintro ⟨_, hitems, h⟩
    exact Option.some.inj hitems ▸ h
  · exact fun h => ⟨items, rfl, h⟩

/-- Names are listed only if there are any, but without any there is none that is no text. -/
theorem Value.counts_imp_joinsTexts_iff {items listed : List Value} (hlisted : listed ⊆ items) :
    ((Value.list items).counts methodsOf = true → (Value.list listed).JoinsTexts) ↔
      ∀ v ∈ listed, v.text?.isSome = true := by
  rw [joinsTexts_list]
  cases items with
  | nil =>
    obtain rfl := List.subset_nil.mp hlisted
    simp
  | cons v vs => exact forall_prop_of_true rfl

/-- **What was expected and found can be told.** Values that count as false are not told. A sequence
of one item is told by the item, and any other by the texts it joins. -/
structure Expectation.Told (methodsOf : Nat → List Scalar) (e : Expectation) : Prop where
  expected : e.expected.counts methodsOf = true → ∃ count, e.expected.length methodsOf = .ok count ∧
    if count = 1 then ∃ item, e.expected.zeroth = .ok item ∧ item.isWritable = true
    else e.expected.JoinsTexts
  found : e.found.counts methodsOf = true → e.found.isWritable = true
  suggestion : e.suggestion.counts methodsOf = true → e.suggestion.isWritable = true

/-- **The details of a cause can be told**: names that are listed are texts, and an object whose
methods are listed can be written. -/
def Cause.Told (methodsOf : Nat → List Scalar) : Cause → Prop
  | malformed context => context.Told methodsOf
  | unexpectedCharacter context _ => context.Told methodsOf
  | unexpectedToken context => context.Told methodsOf
  | unknownCoreMethod _ available => available.counts methodsOf = true → available.JoinsTexts
  | undefinedVariable _ available => available.counts methodsOf = true →
      ∃ listed, available.firstItems listedNames = .ok listed ∧ listed.JoinsTexts
  | unknownMethod object _ available => available.counts methodsOf = true →
      object.isWritable = true ∧ available.JoinsTexts
  | _ => True

namespace Expectation

/-- Texts that were expected can be told. -/
theorem told_of_texts {e : Expectation} {names : List String}
    (hexpected : e.expected = .texts names) (hfound : e.found.isWritable = true)
    (hsuggestion : e.suggestion.isWritable = true) : e.Told methodsOf where
  expected _ := by
    rw [hexpected]
    refine ⟨(names.map Value.text).length, rfl, ?_⟩
    rw [List.length_map]
    split
    · next hone =>
      obtain ⟨name, rfl⟩ := List.length_eq_one_iff.mp hone
      exact ⟨.text name, rfl, rfl⟩
    · refine Value.joinsTexts_list.mpr fun item hitem => ?_
      obtain ⟨name, -, rfl⟩ := List.mem_map.mp hitem
      rfl
  found _ := hfound
  suggestion _ := hsuggestion

/-- What was expected can be told: one item by itself, and several as texts. -/
theorem exists_wanted_iff (hnames : Value.ShortNames methodsOf) {expected : Value} :
    (∃ lines, wanted methodsOf expected = .ok lines) ↔ (expected.counts methodsOf = true →
      ∃ count, expected.length methodsOf = .ok count ∧
        if count = 1 then ∃ item, expected.zeroth = .ok item ∧ item.isWritable = true
        else expected.JoinsTexts) := by
  unfold wanted
  rw [exists_ite_eq_ok_iff, exists_bind_eq_ok_iff]
  refine imp_congr_right fun _ => exists_congr fun count => and_congr_right fun _ => ?_
  split
  · rw [exists_bind_eq_ok_iff]
    refine exists_congr fun item => and_congr_right fun _ => ?_
    rw [exists_bind_eq_ok_iff, ← Value.exists_plain_iff hnames]
    exact exists_congr fun _ => and_iff_left ⟨_, rfl⟩
  · rw [exists_bind_eq_ok_iff, ← Value.exists_joined_iff]
    exact exists_congr fun _ => and_iff_left ⟨_, rfl⟩

/-- A detail that counts as false is not told, so it need not be writable. -/
theorem exists_detail_iff (hnames : Value.ShortNames methodsOf) {label : String} {v : Value} :
    (∃ lines, detail methodsOf label v = .ok lines) ↔
      (v.counts methodsOf = true → v.isWritable = true) := by
  unfold detail
  rw [exists_ite_eq_ok_iff, exists_map_eq_ok_iff, Value.exists_plain_iff hnames]

/-- The three details are told one after the other, so each has to be. -/
theorem exists_details_iff (hnames : Value.ShortNames methodsOf) {e : Expectation} :
    (∃ lines, e.details methodsOf = .ok lines) ↔ e.Told methodsOf := by
  have hparts : (∃ lines, e.details methodsOf = .ok lines) ↔
      (∃ lines, wanted methodsOf e.expected = .ok lines) ∧
      (∃ lines, detail methodsOf "Found: " e.found = .ok lines) ∧
      ∃ lines, detail methodsOf "Suggestion: " e.suggestion = .ok lines := by
    unfold details
    simp [exists_bind_eq_ok_iff, pure, Except.pure]
  rw [hparts, exists_wanted_iff hnames, exists_detail_iff hnames, exists_detail_iff hnames]
  exact ⟨fun ⟨hexpected, hfound, hsuggestion⟩ => ⟨hexpected, hfound, hsuggestion⟩,
    fun h => ⟨h.expected, h.found, h.suggestion⟩⟩

end Expectation

/-- The names of variables that an error lists are the first few. -/
theorem Cause.told_undefinedVariable {name : Value} {names : List Value} :
    (undefinedVariable name (.list names)).Told methodsOf ↔
      ((Value.list names).counts methodsOf = true →
        (Value.list (names.take listedNames)).JoinsTexts) := by
  refine imp_congr_right fun _ => ⟨?_, fun h => ⟨_, rfl, h⟩⟩
  rintro ⟨_, hfirst, h⟩
  exact Except.ok.inj hfirst ▸ h

/-- An object that is named by a text can be told, and so only its methods matter. -/
theorem Cause.told_unknownMethod {object : String} {method available : Value} :
    (unknownMethod (.text object) method available).Told methodsOf ↔
      (available.counts methodsOf = true → available.JoinsTexts) :=
  imp_congr_right fun _ => and_iff_right rfl

/-- **When the details of a cause can be told.** -/
theorem Cause.exists_details_iff (hnames : Value.ShortNames methodsOf) {cause : Cause} :
    (∃ lines, cause.details methodsOf = .ok lines) ↔ cause.Told methodsOf := by
  cases cause with
  | malformed context => exact Expectation.exists_details_iff hnames
  | unexpectedCharacter context character => exact Expectation.exists_details_iff hnames
  | unexpectedToken context => exact Expectation.exists_details_iff hnames
  | unknownCoreMethod method available =>
    rw [details, exists_ite_eq_ok_iff, exists_map_eq_ok_iff, Value.exists_joined_iff]
    rfl
  | undefinedVariable name available =>
    rw [details, exists_ite_eq_ok_iff, exists_bind_eq_ok_iff]
    refine imp_congr_right fun _ => exists_congr fun listed => and_congr_right fun _ => ?_
    rw [exists_bind_eq_ok_iff, ← Value.exists_joined_iff]
    exact exists_congr fun _ => and_iff_left ⟨_, rfl⟩
  | unknownMethod object method available =>
    rw [details, exists_ite_eq_ok_iff, exists_bind_eq_ok_iff]
    refine imp_congr_right fun _ => ?_
    rw [← Value.exists_plain_iff hnames, ← Value.exists_joined_iff, ← exists_and_right]
    refine exists_congr fun shown => and_congr_right fun _ => ?_
    rw [exists_bind_eq_ok_iff]
    exact exists_congr fun _ => and_iff_left ⟨_, rfl⟩
  | _ => exact iff_of_true ⟨[], rfl⟩ trivial

namespace ScriptError

/-- The facts that the head of an error shows. -/
def headFacts (e : ScriptError) : List Value :=
  (if e.line.isNull then [] else if e.column.isNull then [e.line] else [e.line, e.column])
    ++ [e.code, e.message]

/-- A head needs its place, its code and its message. -/
theorem exists_head_iff (hnames : Value.ShortNames methodsOf) (e : ScriptError) :
    (∃ head, e.head methodsOf = .ok head) ↔ ∀ v ∈ e.headFacts, v.isWritable = true := by
  have hparts : (∃ head, e.head methodsOf = .ok head) ↔
      (∃ place, e.place methodsOf = .ok place) ∧ (∃ code, e.code.plain methodsOf = .ok code) ∧
      ∃ message, e.message.plain methodsOf = .ok message := by
    unfold head
    simp [exists_bind_eq_ok_iff, pure, Except.pure]
  have hplace : (∃ place, e.place methodsOf = .ok place) ↔ ∀ v ∈ (if e.line.isNull then []
      else if e.column.isNull then [e.line] else [e.line, e.column]), v.isWritable = true := by
    unfold place
    split
    · simp
    · rw [exists_bind_eq_ok_iff]
      split
      · simp [← Value.exists_plain_iff hnames, pure, Except.pure]
      · simp [exists_bind_eq_ok_iff, ← Value.exists_plain_iff hnames, pure, Except.pure]
  rw [hparts, hplace, Value.exists_plain_iff hnames, Value.exists_plain_iff hnames, headFacts,
    List.forall_mem_append]
  simp

/-- **When an error has a text.** -/
theorem exists_text_iff_told (hnames : Value.ShortNames methodsOf) (e : ScriptError) :
    (∃ text, e.text methodsOf = .ok text) ↔
      (∀ v ∈ e.headFacts, v.isWritable = true) ∧ e.cause.Told methodsOf := by
  have hparts : (∃ text, e.text methodsOf = .ok text) ↔
      (∃ head, e.head methodsOf = .ok head) ∧ ∃ lines, e.cause.details methodsOf = .ok lines := by
    unfold text details
    simp [exists_bind_eq_ok_iff, pure, Except.pure]
  rw [hparts, exists_head_iff hnames, Cause.exists_details_iff hnames]

/-- An error without a place has a text if its details can be told. -/
theorem exists_text_iff_of_unplaced (hnames : Value.ShortNames methodsOf) {cause : Cause}
    {message : String} :
    (∃ text, ScriptError.text methodsOf { cause := cause, message := .text message } = .ok text) ↔
      cause.Told methodsOf := by
  rw [exists_text_iff_told hnames]
  exact and_iff_right (List.forall_mem_cons.mpr ⟨rfl, List.forall_mem_singleton.mpr rfl⟩)

end ScriptError

/-! ## Errors of the embedding program -/

namespace ForeignError

/-- What the text of a failure of the system shows beyond its number and its description. -/
def subjectsShown : List Value → List Value
  | [] => []
  | first :: more =>
    if first.isNull then []
    else
      match more with
      | [_, other] => if other.isNull then [first] else [first, other]
      | _ => [first]

/-- The arguments that the text of a failure of the system shows. -/
def systemShown : List Value → List Value
  | number :: what :: more =>
    if more.length ≤ 3 then number :: what :: subjectsShown more else number :: what :: more
  | arguments => arguments

/-- The arguments that the text of an error shows. -/
def shownArguments (e : ForeignError) : List Value :=
  if systemKinds.contains e.kind then systemShown e.arguments else e.arguments

/-- The files that a failure of the system names are shown by their display forms. -/
theorem exists_subjects_iff (hnames : Value.ShortNames methodsOf) (arguments : List Value) :
    (∃ text, subjects methodsOf arguments = .ok text) ↔
      ∀ v ∈ subjectsShown arguments, v.isWritable = true := by
  cases arguments with
  | nil => simp [subjects, subjectsShown]
  | cons first more =>
    have hone : (∃ shown, first.display methodsOf = .ok shown ∧
        ∃ text, (pure (": " ++ shown) : Except ForeignError String) = .ok text) ↔
          ∀ v ∈ [first], v.isWritable = true := by
      rw [List.forall_mem_singleton, ← Value.exists_display_iff hnames]
      exact exists_congr fun _ => and_iff_left ⟨_, rfl⟩
    unfold subjects subjectsShown
    dsimp only
    by_cases hfirst : first.isNull = true
    · rw [if_pos hfirst, if_pos hfirst]
      exact iff_of_true ⟨"", rfl⟩ (by simp)
    · rw [if_neg hfirst, if_neg hfirst, exists_bind_eq_ok_iff]
      rcases more with _ | ⟨_, _ | ⟨other, _ | _⟩⟩
      · exact hone
      · exact hone
      · dsimp only
        split
        · exact hone
        · rw [List.forall_mem_cons, List.forall_mem_singleton, ← Value.exists_display_iff hnames,
            ← Value.exists_display_iff hnames, ← exists_and_right]
          refine exists_congr fun _ => and_congr_right fun _ => ?_
          rw [exists_bind_eq_ok_iff]
          exact exists_congr fun _ => and_iff_left ⟨_, rfl⟩
      · exact hone

theorem exists_argumentsText_iff (hnames : Value.ShortNames methodsOf) (arguments : List Value) :
    (∃ text, argumentsText methodsOf arguments = .ok text) ↔
      ∀ v ∈ arguments, v.isWritable = true := by
  unfold argumentsText
  split
  · simp
  · rw [Value.exists_plain_iff hnames, List.forall_mem_singleton]
  · rw [exists_map_eq_ok_iff, Value.exists_displayAll_iff hnames, Value.isWritableAll_iff]

/-- A failure of the system with a number and a description shows these and its files, and any other
shows all of its arguments. -/
theorem exists_systemText_iff (hnames : Value.ShortNames methodsOf) (arguments : List Value) :
    (∃ text, systemText methodsOf arguments = .ok text) ↔
      ∀ v ∈ systemShown arguments, v.isWritable = true := by
  match arguments with
  | [] => exact exists_argumentsText_iff hnames []
  | [argument] => exact exists_argumentsText_iff hnames [argument]
  | number :: what :: more =>
    unfold systemText systemShown
    dsimp only
    by_cases hfew : more.length ≤ 3
    · rw [if_pos hfew, if_pos hfew, List.forall_mem_cons, List.forall_mem_cons,
        ← exists_subjects_iff hnames, ← Value.exists_plain_iff hnames,
        ← Value.exists_plain_iff hnames]
      simp [exists_bind_eq_ok_iff, pure, Except.pure]
    · rw [if_neg hfew, if_neg hfew]
      exact exists_argumentsText_iff hnames _

/-- **When an error of the embedding program has a text.** -/
theorem exists_text_iff (hnames : Value.ShortNames methodsOf) (e : ForeignError) :
    (∃ text, e.text methodsOf = .ok text) ↔ ∀ v ∈ e.shownArguments, v.isWritable = true := by
  unfold text shownArguments
  split
  · exact exists_systemText_iff hnames e.arguments
  · split
    · next argument hargument =>
      rw [hargument, List.forall_mem_singleton]
      split
      · exact Value.exists_display_iff hnames argument
      · exact Value.exists_plain_iff hnames argument
    · exact exists_argumentsText_iff hnames e.arguments

end ForeignError

end CallScript
