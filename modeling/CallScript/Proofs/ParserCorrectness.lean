import CallScript.Proofs.Failures

/-!
# The parser is the grammar

Two results about `parse`, for every list of tokens, made by hand or read from a text.

Parsing answers exactly on the lists that the grammar accepts, with the tree of the only derivation
there is, and everything else is an unexpected token. This is the equivalence of readers and
derivations, read at the end of input (`parse_eq_ok_iff`).

The second result is about those other lists. The parser never reads past the point where it could
have known better: the tokens before the one it complains about can still be completed to a program,
the token itself cannot follow them, and each kind that the error lists could have stood in its
place. What comes after the token makes no difference (`AtFirstImpossible`).
-/

namespace CallScript

open Grammar

/-! ## Answers -/

theorem parse_eq_ok_iff {ts : List Token} {node : Node} :
    parse ts = .ok node ↔ ∃ d : Program, d.Derives ts ∧ node = d.node := by
  have hparse : parse ts = .ok node ↔
      ∃ nodes rest, Parser.statements ts = .ok nodes rest ∧ node = ⟨.program, .null, nodes⟩ := by
    unfold parse Parser.program Parser.bind
    cases Parser.statements ts with
    | ok nodes rest => simp [Parser.pure, eq_comm]
    | error e rest => simp
  rw [hparse]
  constructor
  · rintro ⟨nodes, rest, h, rfl⟩
    obtain ⟨hend, d, rfl, rfl⟩ := Parser.statements_eq_ok_iff.mp h
    match rest with
    | stop :: ignored =>
      exact ⟨d, (d.derives_iff _).mpr ⟨⟨stop, of_decide_eq_true hend⟩, ignored, rfl⟩, rfl⟩
  · rintro ⟨d, hd, rfl⟩
    obtain ⟨stop, ignored, rfl⟩ := (d.derives_iff ts).mp hd
    refine ⟨d.nodes, stop.val :: ignored, Parser.statements_eq_ok_iff.mpr ⟨?_, d, rfl, rfl⟩, rfl⟩
    exact decide_eq_true stop.property

/-- The grammar accepts what the parser answers on. -/
theorem accepts_iff_exists_parse {ts : List Token} : Accepts ts ↔ ∃ node, parse ts = .ok node := by
  constructor
  · rintro ⟨d, hd⟩
    exact ⟨d.node, parse_eq_ok_iff.mpr ⟨d, hd, rfl⟩⟩
  · rintro ⟨node, h⟩
    obtain ⟨d, hd, -⟩ := parse_eq_ok_iff.mp h
    exact ⟨d, hd⟩

/-- Parsing fails where the reader of statements does. -/
theorem parse_eq_error_iff {ts : List Token} {e : ScriptError} :
    parse ts = .error e ↔ ∃ rest, Parser.statements ts = .error e rest := by
  unfold parse Parser.program Parser.bind
  cases Parser.statements ts with
  | ok nodes rest => simp [Parser.pure]
  | error e' rest => simp

/-- **Parsing follows the grammar.** The parser answers on a list of tokens exactly if the grammar
accepts it. The list then has one derivation only, and the answer is its tree. On any other list the
parser fails with an unexpected token. -/
theorem parse_follows_grammar (ts : List Token) :
    ((∃ node, parse ts = .ok node) ↔ Accepts ts) ∧
    (∀ d : Program, d.Derives ts →
      (∀ d' : Program, d'.Derives ts → d' = d) ∧ parse ts = .ok d.node) ∧
    (¬ Accepts ts → ∃ e, parse ts = .error e ∧ e.kind = .unexpectedToken) := by
  refine ⟨accepts_iff_exists_parse.symm, fun d hd => ⟨fun d' hd' => ?_, ?_⟩, fun h => ?_⟩
  · exact Program.tokens_injective d' d (hd'.2.trans hd.2.symm)
  · exact parse_eq_ok_iff.mpr ⟨d, hd, rfl⟩
  · cases hparse : parse ts with
    | ok node => exact absurd (accepts_iff_exists_parse.mpr ⟨node, hparse⟩) h
    | error e =>
      refine ⟨e, rfl, ?_⟩
      obtain ⟨rest, hread⟩ := parse_eq_error_iff.mp hparse
      obtain ⟨before, -, hstuck⟩ := Parser.stuck_of_statements hread
      obtain ⟨message, kinds, suggestion, rfl, -⟩ := hstuck.expects
      rfl

/-! ## Failures -/

/-- A list of tokens that can be extended to one that the grammar accepts. -/
def Grammar.Viable (ts : List Token) : Prop := ∃ more, Accepts (ts ++ more)

/-- The position at which a cursor over a list of tokens stands once a program has been read or the
reading has failed. -/
def stopPosition (ts : List Token) : Nat := ((Cursor.mk ts 0).read Parser.program).2.pos

/-- The name of the kind of the token at a position; past the end it is that of the end of input. -/
def kindNameAt (ts : List Token) (k : Nat) : String :=
  (ts[k]?.map fun t => t.kind.name).getD TokenKind.endOfInput.name

theorem Grammar.Viable.of_append {ts more : List Token} (h : Viable (ts ++ more)) : Viable ts := by
  obtain ⟨later, hlater⟩ := h
  exact ⟨more ++ later, by rwa [← List.append_assoc]⟩

/-- A failure leaves the cursor behind the tokens that were read. -/
theorem stopPosition_of_error {before rest : List Token} {e : ScriptError}
    (h : Parser.statements (before ++ rest) = .error e rest) :
    stopPosition (before ++ rest) = before.length := by
  have hprogram : Parser.program (before ++ rest) = .error e rest := Parser.bind_of_error h
  simp [stopPosition, Cursor.read, Cursor.rest, hprogram]

/-- What a stuck reader of programs has read, and one more token of a kind that it lists, can be
completed to a program. -/
theorem viable_of_completion {before after : List Token} {nodes : List Node} {t : Token}
    (h : ∀ later, Parser.EndsHere later →
      Parser.statements (before ++ t :: (after ++ later)) = .ok nodes later) :
    Viable (before ++ [t]) := by
  let stop : TokenOf .endOfInput := Parser.sample .endOfInput
  have hread := h [stop.val] (decide_eq_true stop.property)
  obtain ⟨-, d, htokens, -⟩ := Parser.statements_eq_ok_iff.mp hread
  refine ⟨after ++ [stop.val], d, (d.derives_iff _).mpr ⟨stop, [], ?_⟩⟩
  rw [← htokens, List.append_assoc, List.singleton_append]

/-- The tokens up to and with the one at which a reader stands. -/
theorem take_succ_append_cons (before : List Token) (t : Token) (rest : List Token) :
    (before ++ t :: rest).take (before.length + 1) = before ++ [t] := by
  rw [List.take_append, List.take_of_length_le (Nat.le_succ _)]
  simp

/-- **An error at the first impossible token** of a list, whose position is `k`. -/
structure AtFirstImpossible (ts : List Token) (e : ScriptError) (k : Nat) : Prop where
  /-- What comes before it can be completed to a program. -/
  viable : Viable (ts.take k)
  /-- With it, unless the list ends there, no program can be completed any more. -/
  impossible : k = ts.length ∨ k < ts.length ∧ ¬ Viable (ts.take (k + 1))
  /-- The error is an unexpected token. It shows the kind of the token at `k`, and each kind that it
  lists could have stood there. -/
  expected : ∃ (kinds : List TokenKind) (suggestion : Value), kinds ≠ [] ∧
    e.cause = .unexpectedToken
      { expected := .texts (kinds.map TokenKind.name)
        found := .text (kindNameAt ts k)
        suggestion := suggestion } ∧
    ∀ kind ∈ kinds, ∀ t : Token, t.kind = kind → Viable (ts.take k ++ [t])
  /-- It carries the place of that token, and none at the end of the list. -/
  line : e.line = (ts[k]?.map fun t => t.line).getD .null
  column : e.column = (ts[k]?.map fun t => t.column).getD .null
  /-- What follows the token makes no difference. -/
  final : k < ts.length → ∀ ts' : List Token, ts'.take (k + 1) = ts.take (k + 1) →
    parse ts' = .error e

/-- **The parser fails at the first impossible token**, and its error says so. -/
theorem parse_error_at_first_impossible_token (ts : List Token) (e : ScriptError)
    (h : parse ts = .error e) : AtFirstImpossible ts e (stopPosition ts) := by
  obtain ⟨rest, hread⟩ := parse_eq_error_iff.mp h
  obtain ⟨before, rfl, hstuck⟩ := Parser.stuck_of_statements hread
  obtain ⟨message, kinds, suggestion, he, hne, hkinds⟩ := hstuck.expects
  rw [stopPosition_of_error hread]
  have htoken : (before ++ rest)[before.length]? = rest.head? := by
    rw [List.getElem?_append_right (Nat.le_refl _), Nat.sub_self, List.head?_eq_getElem?]
  have hfound : kindNameAt (before ++ rest) before.length = Parser.foundName rest := by
    rw [kindNameAt, htoken]
    cases rest <;> rfl
  have hviable : ∀ t : Token, t.kind ∈ kinds → Viable (before ++ [t]) := by
    intro t ht
    obtain ⟨after, nodes, hafter⟩ := hkinds t ht
    exact viable_of_completion hafter
  -- every list that goes on after the token at which the reader stands fails there
  have hfinal : ∀ t rest', rest = t :: rest' → ∀ later,
      parse (before ++ t :: later) = .error e :=
    fun t rest' hrest later => parse_eq_error_iff.mpr ⟨_, hstuck.again t rest' hrest later⟩
  refine ⟨?_, ?_, ⟨kinds, (suggestion.map Value.text).getD .null, hne, ?_, ?_⟩, ?_, ?_, ?_⟩
  · obtain ⟨kind, hkind⟩ := List.exists_mem_of_ne_nil kinds hne
    rw [List.take_left]
    exact (hviable (Parser.sample kind).val hkind).of_append
  · cases rest with
    | nil => exact .inl (by simp)
    | cons t rest =>
      refine .inr ⟨by simp, ?_⟩
      rw [take_succ_append_cons]
      rintro ⟨later, hlater⟩
      obtain ⟨node, hnode⟩ := accepts_iff_exists_parse.mp hlater
      rw [List.append_assoc, List.singleton_append, hfinal t rest rfl later] at hnode
      cases hnode
  · rw [he, hfound]
    rfl
  · rintro kind hkind t rfl
    rw [List.take_left]
    exact hviable t hkind
  · rw [he, htoken]
    rfl
  · rw [he, htoken]
    rfl
  · intro hlt ts' hts'
    cases rest with
    | nil => simp at hlt
    | cons t rest =>
      rw [take_succ_append_cons] at hts'
      rw [← List.take_append_drop (before.length + 1) ts', hts', List.append_assoc,
        List.singleton_append]
      exact hfinal t rest rfl _

/-- The tokens of `f([x,);`, a call in whose array an element is missing after the comma. -/
def danglingComma : List Token :=
  [⟨.identifier, .text "f", .int 1, .int 1⟩, ⟨.leftParen, .null, .int 1, .int 2⟩,
    ⟨.leftBracket, .null, .int 1, .int 3⟩, ⟨.identifier, .text "x", .int 1, .int 4⟩,
    ⟨.comma, .null, .int 1, .int 5⟩, ⟨.rightParen, .null, .int 1, .int 6⟩,
    ⟨.semicolon, .null, .int 1, .int 7⟩]

theorem statements_danglingComma :
    Parser.statements danglingComma
      = .error (Parser.missingExpression (danglingComma.drop 5)) (danglingComma.drop 5) := by
  have hargs : Parser.closedArguments (danglingComma.drop 2)
      = .error (Parser.missingExpression (danglingComma.drop 5)) (danglingComma.drop 5) :=
    (Parser.closedArguments_eq_closedList rfl).trans (Parser.closedList_of_error rfl)
  refine Parser.statements_of_error rfl ?_
  refine (Parser.statement_of_direct ⟨_, rfl⟩ rfl).trans (Outcome.map_eq_error_iff.mpr ?_)
  refine (Parser.directCall_cons _ ⟨_, rfl⟩ _).trans (Outcome.map_eq_error_iff.mpr ?_)
  exact Parser.bind_of_error hargs

/-- The parser fails at the parenthesis after the comma, two levels inside the call. -/
theorem danglingComma_fails_at_parenthesis :
    parse danglingComma = .error (Parser.missingExpression (danglingComma.drop 5)) ∧
      AtFirstImpossible danglingComma (Parser.missingExpression (danglingComma.drop 5)) 5 := by
  have hparse : parse danglingComma = .error (Parser.missingExpression (danglingComma.drop 5)) :=
    parse_eq_error_iff.mpr ⟨_, statements_danglingComma⟩
  have hposition : stopPosition danglingComma = 5 :=
    @stopPosition_of_error (danglingComma.take 5) _ _ statements_danglingComma
  have hfirst := parse_error_at_first_impossible_token danglingComma _ hparse
  rw [hposition] at hfirst
  exact ⟨hparse, hfirst⟩

end CallScript
