import CallScript.Proofs.Derivations

/-!
# Where a reader fails and what it says

A reader that fails has read some tokens and stands at the token it cannot go on with. `Stuck` says
what such a failure amounts to, in three facts. The tokens read so far hold no end of input. The
error names the token that the reader stands at and lists kinds of tokens, and with a token of any
of these kinds in its place the reader could have gone on to an answer. And the failure is final:
whatever follows the token that the reader stands at, it fails there in the same way.

The facts about one reader after another follow from those about its parts, as long as the first
part marks its own end (`Delimits`) and the second can be satisfied (`Satisfiable`). The arguments
of a call do not mark their end, since the token after them decides whether there are more; they
are therefore taken together with the closing parenthesis (`closedArguments`).
-/

namespace CallScript.Parser

open Grammar

variable {α β : Type}

/-! ## Failures -/

/-- **A reader that has read some tokens and is stuck at the rest.** What may follow an answer of
the reader is a parameter, since the reader of programs asks for an end of input after them. -/
structure Stuck (follows : List Token → Prop) (p : Parser α) (before : List Token)
    (e : ScriptError) (rest : List Token) : Prop where
  /-- It has not read an end of input. -/
  inside : ∀ t ∈ before, isEnd t = false
  /-- The error is about the token at which the reader stands, and a token of any kind that it
  lists would have let the reader go on to an answer. -/
  expects : ∃ (message : String) (kinds : List TokenKind) (suggestion : Option String),
    e = unexpected message (kinds.map TokenKind.name) suggestion rest ∧ kinds ≠ [] ∧
      ∀ t : Token, t.kind ∈ kinds → ∃ (after : List Token) (a : α),
        ∀ later, follows later → p (before ++ t :: (after ++ later)) = .ok a later
  /-- Whatever follows that token, the reader fails at it in the same way. -/
  again : ∀ t rest', rest = t :: rest' →
    ∀ later, p (before ++ t :: later) = .error e (t :: later)

/-- Anything may follow. -/
def Anything (_ : List Token) : Prop := True

/-- A reader that is stuck inside a list of tokens. -/
def StuckIn (p : Parser α) (ts : List Token) (e : ScriptError) (rest : List Token) : Prop :=
  ∃ before, ts = before ++ rest ∧ Stuck Anything p before e rest

/-- Every failure of a reader leaves it stuck at a token. -/
def Diagnoses (p : Parser α) : Prop :=
  ∀ ts e rest, p ts = .error e rest → StuckIn p ts e rest

/-- A reader that marks its own end: it answers in the same way whatever follows what it read. -/
def Delimits (p : Parser α) : Prop :=
  ∀ ts a rest, p ts = .ok a rest → ∃ before, ts = before ++ rest ∧
    (∀ t ∈ before, isEnd t = false) ∧ ∀ later, p (before ++ later) = .ok a later

/-- A reader that answers on some tokens, whatever follows them. -/
def Satisfiable (p : Parser α) : Prop :=
  ∃ (after : List Token) (a : α), ∀ later, p (after ++ later) = .ok a later

/-- A reader that diagnoses its failures and can be satisfied: this is what has to hold of a reader
for it to follow another. -/
structure Completable (p : Parser α) : Prop where
  diagnoses : Diagnoses p
  satisfiable : Satisfiable p

/-- Whatever lets one reader go on to an answer lets another do so: then an error of the one lists
what it should for the other. -/
theorem Stuck.expects_imp {follows follows' : List Token → Prop} {q : Parser α} {p : Parser β}
    {before before' rest : List Token} {e : ScriptError} (h : Stuck follows q before e rest)
    (himp : ∀ (t : Token) (after : List Token) (a : α),
      (∀ later, follows later → q (before ++ t :: (after ++ later)) = .ok a later) →
        ∃ (after' : List Token) (b : β),
          ∀ later, follows' later → p (before' ++ t :: (after' ++ later)) = .ok b later) :
    ∃ (message : String) (kinds : List TokenKind) (suggestion : Option String),
      e = unexpected message (kinds.map TokenKind.name) suggestion rest ∧ kinds ≠ [] ∧
        ∀ t : Token, t.kind ∈ kinds → ∃ (after : List Token) (b : β),
          ∀ later, follows' later → p (before' ++ t :: (after ++ later)) = .ok b later := by
  obtain ⟨message, kinds, suggestion, he, hne, hkinds⟩ := h.expects
  refine ⟨message, kinds, suggestion, he, hne, fun t ht => ?_⟩
  obtain ⟨after, a, hafter⟩ := hkinds t ht
  exact himp t after a hafter

/-- **A failure behind tokens that are read in any case**: a reader that first reads certain tokens
and then behaves like another, but for its answer, is stuck where the other is. -/
theorem Stuck.of_append {follows : List Token → Prop} {p : Parser β} {q : Parser α}
    {before rest : List Token} {e : ScriptError} (front : List Token) (f : α → β)
    (hfront : ∀ t ∈ front, isEnd t = false)
    (hp : ∀ ts, p (front ++ ts) = (q ts).map f) (h : Stuck follows q before e rest) :
    Stuck follows p (front ++ before) e rest where
  inside t ht := by
    obtain ht | ht := List.mem_append.mp ht
    · exact hfront t ht
    · exact h.inside t ht
  expects := h.expects_imp fun t after a hafter => by
    refine ⟨after, f a, fun later hlater => ?_⟩
    rw [List.append_assoc, hp, hafter later hlater, Outcome.map_ok]
  again t rest' hrest later := by
    rw [List.append_assoc, hp, h.again t rest' hrest later, Outcome.map_error]

/-- A failure of the first of two readers, if the second can be satisfied. -/
theorem Stuck.bind {p : Parser α} {q : α → Parser β} {before rest : List Token} {e : ScriptError}
    (h : Stuck Anything p before e rest) (hq : ∀ a, Satisfiable (q a)) :
    Stuck Anything (bind p q) before e rest where
  inside := h.inside
  expects := h.expects_imp fun t after a hafter => by
    obtain ⟨after', b, hafter'⟩ := hq a
    refine ⟨after ++ after', b, fun later _ => ?_⟩
    refine bind_eq_ok_iff.mpr ⟨a, after' ++ later, ?_, hafter' later⟩
    rw [List.append_assoc]
    exact hafter _ trivial
  again t rest' hrest later := by
    unfold Parser.bind
    rw [h.again t rest' hrest later]

theorem Satisfiable.bind {p : Parser α} {q : α → Parser β} (hp : Satisfiable p)
    (hq : ∀ a, Satisfiable (q a)) : Satisfiable (bind p q) := by
  obtain ⟨after, a, hafter⟩ := hp
  obtain ⟨after', b, hafter'⟩ := hq a
  refine ⟨after ++ after', b, fun later => ?_⟩
  rw [List.append_assoc, bind_of_ok (hafter _), hafter']

/-- **One reader after another** is stuck where one of them is. -/
theorem Completable.bind {p : Parser α} {q : α → Parser β} (hp : Completable p) (hd : Delimits p)
    (hq : ∀ a, Completable (q a)) : Completable (bind p q) where
  satisfiable := hp.satisfiable.bind fun a => (hq a).satisfiable
  diagnoses ts e rest h := by
    cases hread : p ts with
    | error e' rest' =>
      rw [bind_of_error hread] at h
      cases h
      obtain ⟨before, hts, hstuck⟩ := hp.diagnoses ts e rest hread
      exact ⟨before, hts, hstuck.bind fun a => (hq a).satisfiable⟩
    | ok a rest' =>
      rw [bind_of_ok hread] at h
      obtain ⟨front, rfl, hfront, hagain⟩ := hd ts a rest' hread
      obtain ⟨before, rfl, hstuck⟩ := (hq a).diagnoses rest' e rest h
      refine ⟨front ++ before, (List.append_assoc _ _ _).symm, ?_⟩
      refine hstuck.of_append front id hfront fun later => ?_
      rw [bind_of_ok (hagain later)]
      cases q a later <;> rfl

theorem completable_pure (a : α) : Completable (pure a) where
  diagnoses ts e rest h := by cases h
  satisfiable := ⟨[], a, fun _ => rfl⟩

/-- **A failure after a look at the next token.** A reader that behaves like another unless a token
of some kind is next is stuck where the other is, as long as it can be satisfied from a token of
that kind. -/
theorem Stuck.of_lookahead {p q : Parser α} {kind : TokenKind} {before rest : List Token}
    {e : ScriptError} (hother : ∀ ts, nextIs kind ts = false → p ts = q ts)
    (hkind : ∀ t : TokenOf kind, Satisfiable fun later => p (t.val :: later))
    (hnext : nextIs kind (before ++ rest) = false) (h : Stuck Anything q before e rest) :
    Stuck Anything p before e rest where
  inside := h.inside
  expects := h.expects_imp fun t after a hafter => by
    -- a token of the kind that is looked for can only be met as the first one
    by_cases hfirst : before = [] ∧ t.kind = kind
    · obtain ⟨rfl, hfirst⟩ := hfirst
      obtain ⟨after, a, hafter⟩ := hkind ⟨t, hfirst⟩
      exact ⟨after, a, fun later _ => hafter later⟩
    · refine ⟨after, a, fun later hlater => ?_⟩
      rw [hother, hafter later hlater]
      cases before with
      | nil => exact decide_eq_false fun h => hfirst ⟨rfl, h⟩
      | cons u before => exact hnext
  again := by
    rintro t rest' rfl later
    rw [hother, h.again t rest' rfl later]
    cases before with
    | nil => exact hnext
    | cons u before => exact hnext

/-! ## Single tokens -/

/-- A token of a kind. -/
def sample (kind : TokenKind) : TokenOf kind := ⟨⟨kind, .null, .null, .null⟩, rfl⟩

theorem not_isEnd_concat {kind : TokenKind} {front : List Token}
    (hfront : ∀ t ∈ front, isEnd t = false) (last : TokenOf kind) (hkind : kind ≠ .endOfInput) :
    ∀ t ∈ front ++ [last.val], isEnd t = false := by
  intro t ht
  obtain ht | ht := List.mem_append.mp ht
  · exact hfront t ht
  · rw [List.mem_singleton.mp ht]
    exact isEnd_val hkind last

/-- A reader of one token of a kind, with an error of its own. -/
structure ReadsOne (kind : TokenKind) (p : Parser α) : Prop where
  answers : ∀ t : TokenOf kind, ∃ a, ∀ ts, p (t.val :: ts) = .ok a ts
  complains : ∀ ts, nextIs kind ts = false → ∃ message suggestion,
    p ts = .error (unexpected message [kind.name] suggestion ts) ts ∧
      ∀ t ts' later, ts = t :: ts' →
        p (t :: later) = .error (unexpected message [kind.name] suggestion ts) (t :: later)

theorem readsOne_expect (kind : TokenKind) : ReadsOne kind (expect kind) where
  answers t := ⟨t, fun ts => expect_eq_ok_iff.mpr ⟨t.property, rfl⟩⟩
  complains ts hts := by
    refine ⟨"Expected " ++ kind.name ++ " but found " ++ foundName ts, suggestion? kind ts, ?_, ?_⟩
    · cases ts with
      | nil => rfl
      | cons t ts => exact if_neg (of_decide_eq_false hts)
    · rintro t ts' later rfl
      exact if_neg (of_decide_eq_false hts)

theorem readsOne_memberDot (object : Token) : ReadsOne .dot (memberDot object) where
  answers t := ⟨(), fun ts => memberDot_eq_ok_iff.mpr ⟨t, rfl⟩⟩
  complains ts hts := by
    refine ⟨"Expected method call on '" ++ object.name ++ "'", none, ?_, ?_⟩
    · cases ts with
      | nil => rfl
      | cons t ts => exact if_neg (of_decide_eq_false hts)
    · rintro t ts' later rfl
      exact if_neg (of_decide_eq_false hts)

variable {kind : TokenKind} {p : Parser α}

/-- What a reader of one token does when the token is there. -/
theorem ReadsOne.eq_cons (h : ReadsOne kind p) {ts rest : List Token} {a : α}
    (hread : p ts = .ok a rest) : ∃ t : TokenOf kind, ts = t.val :: rest := by
  cases hts : nextIs kind ts with
  | false =>
    obtain ⟨message, suggestion, herror, -⟩ := h.complains ts hts
    rw [herror] at hread
    cases hread
  | true =>
    match ts with
    | t :: ts =>
      obtain ⟨a', hanswer⟩ := h.answers ⟨t, of_decide_eq_true hts⟩
      rw [hanswer ts] at hread
      cases hread
      exact ⟨⟨t, of_decide_eq_true hts⟩, rfl⟩

theorem ReadsOne.delimits (h : ReadsOne kind p) (hkind : kind ≠ .endOfInput) : Delimits p := by
  intro ts a rest hread
  obtain ⟨t, rfl⟩ := h.eq_cons hread
  obtain ⟨a', hanswer⟩ := h.answers t
  obtain rfl : a' = a := by
    rw [hanswer] at hread
    cases hread
    rfl
  refine ⟨[t.val], rfl, ?_, hanswer⟩
  simpa using isEnd_val hkind t

theorem ReadsOne.completable (h : ReadsOne kind p) : Completable p where
  satisfiable := by
    obtain ⟨a, ha⟩ := h.answers (sample kind)
    exact ⟨[(sample kind).val], a, ha⟩
  diagnoses ts e rest hread := by
    cases hts : nextIs kind ts with
    | true =>
      match ts with
      | t :: ts =>
        obtain ⟨a, hanswer⟩ := h.answers ⟨t, of_decide_eq_true hts⟩
        rw [hanswer ts] at hread
        cases hread
    | false =>
      obtain ⟨message, suggestion, herror, hagain⟩ := h.complains ts hts
      rw [herror] at hread
      cases hread
      refine ⟨[], rfl, by simp, ?_, fun t ts' hts' later => hagain t ts' later hts'⟩
      refine ⟨message, [kind], suggestion, rfl, List.cons_ne_nil _ _, fun t ht => ?_⟩
      obtain ⟨a, hanswer⟩ := h.answers ⟨t, List.mem_singleton.mp ht⟩
      exact ⟨[], a, fun later _ => hanswer later⟩

/-- A token of a kind, and then another reader. -/
theorem ReadsOne.bind (h : ReadsOne kind p) (hkind : kind ≠ .endOfInput) {q : α → Parser β}
    (hq : ∀ a, Completable (q a)) : Completable (bind p q) :=
  h.completable.bind (h.delimits hkind) hq

/-! ## Expressions -/

/-- Open arrays can always be closed. -/
theorem satisfiable_closing (node : Node) (opened : List (List Node)) :
    Satisfiable (closing node opened) := by
  induction opened generalizing node with
  | nil => exact ⟨[], node, fun later => by rw [List.nil_append, closing]⟩
  | cons elements outer ih =>
    obtain ⟨after, a, hafter⟩ := ih ⟨.array, .null, elements.reverse ++ node :: More.done.nodes⟩
    refine ⟨(sample .rightBracket).val :: after, a, fun later => ?_⟩
    exact (closing_tokens (after ++ later) .done (sample .rightBracket) node elements outer).trans
      (hafter later)

/-- An expression may start with any token of one of its kinds. -/
theorem exists_expression {t : Token} (ht : t.kind ∈ expressionKinds) :
    ∃ (e : Expression) (ts : List Token), e.tokens = t :: ts := by
  simp only [expressionKinds, List.mem_cons, List.not_mem_nil, or_false] at ht
  obtain ht | ht | ht | ht := ht
  · exact ⟨.string ⟨t, ht⟩, [], rfl⟩
  · exact ⟨.number ⟨t, ht⟩, [], rfl⟩
  · exact ⟨.identifier ⟨t, ht⟩, [], rfl⟩
  · exact ⟨.array ⟨t, ht⟩ .none (sample .rightBracket), _, rfl⟩

/-- Inside any open arrays an expression can be completed from its first token. -/
theorem satisfiable_expressionWithin (opened : List (List Node)) {t : Token}
    (ht : t.kind ∈ expressionKinds) :
    Satisfiable fun later => expressionWithin opened (t :: later) := by
  obtain ⟨e, ts, he⟩ := exists_expression ht
  obtain ⟨after, a, hafter⟩ := satisfiable_closing e.node opened
  refine ⟨ts ++ after, a, fun later => ?_⟩
  show expressionWithin opened (t :: (ts ++ after ++ later)) = .ok a later
  rw [List.append_assoc, ← List.cons_append, ← he, expressionWithin_tokens, hafter]

/-- A failure behind one token that is read in any case. -/
theorem StuckIn.cons {p q : Parser α} {ts rest : List Token} {e : ScriptError}
    (h : StuckIn q ts e rest) {t : Token} (ht : isEnd t = false)
    (hp : ∀ later, p (t :: later) = q later) : StuckIn p (t :: ts) e rest := by
  obtain ⟨before, rfl, hstuck⟩ := h
  refine ⟨t :: before, rfl, hstuck.of_append [t] id (by simpa using ht) fun later => ?_⟩
  rw [List.singleton_append, hp]
  cases q later <;> rfl

/-- The error of a missing expression lists the kinds that an expression may start with. -/
theorem missingExpression_eq (ts : List Token) : ∃ message,
    missingExpression ts
      = unexpected message (expressionKinds.map TokenKind.name) none ts := by
  cases ts with
  | nil => exact ⟨_, rfl⟩
  | cons t ts => exact ⟨_, rfl⟩

/-- A reader that stands where an expression is missing. -/
theorem stuck_missingExpression {opened : List (List Node)} {ts : List Token}
    (hagain : ∀ t ts', ts = t :: ts' → ∀ later, expressionWithin opened (t :: later)
      = .error (missingExpression (t :: later)) (t :: later)) :
    Stuck Anything (expressionWithin opened) [] (missingExpression ts) ts where
  inside := by simp
  expects := by
    obtain ⟨message, he⟩ := missingExpression_eq ts
    refine ⟨message, expressionKinds, none, he, List.cons_ne_nil _ _, fun t ht => ?_⟩
    obtain ⟨after, a, hafter⟩ := satisfiable_expressionWithin opened ht
    exact ⟨after, a, fun later _ => hafter later⟩
  again := by
    rintro t ts' rfl later
    exact hagain t ts' rfl later

/-- A reader that stands where a comma or a closing bracket is missing. -/
theorem stuck_missing_rightBracket {node : Node} {elements : List Node} {outer : List (List Node)}
    {ts : List Token} (hagain : ∀ t ts', ts = t :: ts' → ∀ later,
      closing node (elements :: outer) (t :: later)
        = .error (missing .rightBracket (t :: later)) (t :: later)) :
    Stuck Anything (closing node (elements :: outer)) [] (missing .rightBracket ts) ts where
  inside := by simp
  expects := by
    refine ⟨_, [.rightBracket], _, rfl, List.cons_ne_nil _ _, fun t ht => ?_⟩
    obtain ⟨after, a, hafter⟩ :=
      satisfiable_closing ⟨.array, .null, elements.reverse ++ node :: More.done.nodes⟩ outer
    refine ⟨after, a, fun later _ => ?_⟩
    exact (closing_tokens (after ++ later) .done ⟨t, List.mem_singleton.mp ht⟩ node elements
      outer).trans (hafter later)
  again := by
    rintro t ts' rfl later
    exact hagain t ts' rfl later

/-- **Where the reader of expressions fails.** Inside open arrays it stands where an expression or,
after one, a comma or a closing bracket is missing; the open arrays tell how to complete what has
been read. -/
theorem stuckIn_expressionWithin_and_closing (ts : List Token) :
    (∀ opened e rest, expressionWithin opened ts = .error e rest →
      StuckIn (expressionWithin opened) ts e rest) ∧
    ∀ node opened e rest, closing node opened ts = .error e rest →
      StuckIn (closing node opened) ts e rest := by
  induction ts with
  | nil =>
    refine ⟨fun opened e rest h => ?_, fun node opened e rest h => ?_⟩
    · rw [expressionWithin] at h
      cases h
      exact ⟨[], rfl, stuck_missingExpression (by simp)⟩
    · cases opened with
      | nil =>
        rw [closing] at h
        cases h
      | cons elements outer =>
        rw [closing] at h
        cases h
        exact ⟨[], rfl, stuck_missing_rightBracket (by simp)⟩
  | cons t ts ih =>
    refine ⟨fun opened e rest h => ?_, fun node opened e rest h => ?_⟩
    · unfold expressionWithin at h
      split at h
      · next hkind =>
        exact (ih.2 _ _ _ _ h).cons (isEnd_val (by decide) ⟨t, hkind⟩)
          fun later => by simp only [expressionWithin, hkind]
      · next hkind =>
        exact (ih.2 _ _ _ _ h).cons (isEnd_val (by decide) ⟨t, hkind⟩)
          fun later => by simp only [expressionWithin, hkind]
      · next hkind =>
        exact (ih.2 _ _ _ _ h).cons (isEnd_val (by decide) ⟨t, hkind⟩)
          fun later => by simp only [expressionWithin, hkind]
      · next hkind =>
        exact (ih.1 _ _ _ h).cons (isEnd_val (by decide) ⟨t, hkind⟩)
          fun later => by simp only [expressionWithin, hkind]
      · next outer hkind =>
        exact (ih.2 _ _ _ _ h).cons (isEnd_val (by decide) ⟨t, hkind⟩)
          fun later => by simp only [expressionWithin, hkind]
      · cases h
        refine ⟨[], rfl, stuck_missingExpression ?_⟩
        intro t' ts' hts later
        obtain ⟨rfl, rfl⟩ := List.cons.inj hts
        unfold expressionWithin
        split <;> simp_all
    · cases opened with
      | nil =>
        rw [closing] at h
        cases h
      | cons elements outer =>
        rw [closing] at h
        split at h
        · next hkind =>
          exact (ih.1 _ _ _ h).cons (isEnd_val (by decide) ⟨t, hkind⟩)
            fun later => by rw [closing, if_pos hkind]
        · next hcomma =>
          split at h
          · next hkind =>
            exact (ih.2 _ _ _ _ h).cons (isEnd_val (by decide) ⟨t, hkind⟩)
              fun later => by rw [closing, if_neg hcomma, if_pos hkind]
          · next hbracket =>
            cases h
            refine ⟨[], rfl, stuck_missing_rightBracket ?_⟩
            intro t' ts' hts later
            obtain ⟨rfl, rfl⟩ := List.cons.inj hts
            rw [closing, if_neg hcomma, if_neg hbracket]

theorem diagnoses_expression : Diagnoses expression :=
  fun ts e rest h => (stuckIn_expressionWithin_and_closing ts).1 [] e rest h

theorem delimits_expression : Delimits expression := by
  intro ts node rest h
  obtain ⟨e, rfl, rfl⟩ := expression_eq_ok_iff.mp h
  exact ⟨e.tokens, rfl, e.not_isEnd, fun later => expression_eq_ok_iff.mpr ⟨e, rfl, rfl⟩⟩

/-! ## Arguments -/

/-- Reads one or more arguments and the closing parenthesis after them. -/
def closedList : Parser (List Node) :=
  bind argumentList fun nodes => bind (expect .rightParen) fun _ => pure nodes

/-- Reads arguments and the closing parenthesis after them. -/
def closedArguments : Parser (List Node) :=
  bind arguments fun nodes => bind (expect .rightParen) fun _ => pure nodes

theorem closedList_of_error {ts rest : List Token} {e : ScriptError}
    (h : expression ts = .error e rest) : closedList ts = .error e rest :=
  bind_of_error (argumentList_of_error h)

theorem closedList_of_comma {ts rest : List Token} {node : Node} (comma : TokenOf .comma)
    (h : expression ts = .ok node (comma.val :: rest)) :
    closedList ts = (closedList rest).map (node :: ·) := by
  unfold closedList bind
  rw [argumentList_of_comma h comma.property]
  cases argumentList rest with
  | error e r => rfl
  | ok nodes r =>
    simp only [Outcome.map_ok]
    cases expect .rightParen r <;> rfl

/-- An expression without a comma after it ends the list, if the closing parenthesis is there. -/
theorem closedList_of_last {ts rest : List Token} {node : Node}
    (h : expression ts = .ok node rest) (hrest : nextIs .comma rest = false) :
    closedList ts = (expect .rightParen rest).map fun _ => [node] := by
  unfold closedList
  rw [bind_of_ok (argumentList_of_last h hrest)]
  unfold bind
  cases expect .rightParen rest <;> rfl

/-- The list ends at a closing parenthesis. -/
theorem closedList_of_close {ts rest : List Token} {node : Node} (close : TokenOf .rightParen)
    (h : expression ts = .ok node (close.val :: rest)) : closedList ts = .ok [node] rest := by
  have hcomma : nextIs .comma (close.val :: rest) = false := by simp [nextIs, close.property]
  rw [closedList_of_last h hcomma, expect_eq_ok_iff.mpr ⟨close.property, rfl⟩, Outcome.map_ok]

/-- A failure inside an argument. -/
theorem Stuck.closedList {before rest : List Token} {e : ScriptError}
    (h : Stuck Anything expression before e rest) : Stuck Anything closedList before e rest where
  inside := h.inside
  expects := h.expects_imp fun t after node hafter => by
    refine ⟨after ++ [(sample .rightParen).val], [node], fun later _ => ?_⟩
    refine closedList_of_close (sample .rightParen) ?_
    rw [List.append_assoc]
    exact hafter _ trivial
  again t rest' hrest later := closedList_of_error (h.again t rest' hrest later)

/-- A failure after an argument that no comma follows. -/
theorem stuck_closedList_of_last {front rest : List Token} {node : Node}
    (hfront : ∀ t ∈ front, isEnd t = false)
    (hagain : ∀ later, expression (front ++ later) = .ok node later)
    (hcomma : nextIs .comma rest = false) (hclose : nextIs .rightParen rest = false) :
    Stuck Anything closedList front (missing .rightParen rest) rest where
  inside := hfront
  expects := by
    refine ⟨_, [.rightParen], _, rfl, List.cons_ne_nil _ _, fun t ht => ?_⟩
    refine ⟨[], [node], fun later _ => ?_⟩
    exact closedList_of_close ⟨t, List.mem_singleton.mp ht⟩ (hagain _)
  again := by
    rintro t rest' rfl later
    rw [closedList_of_last (hagain (t :: later)) hcomma,
      show expect .rightParen (t :: later)
          = .error (missing .rightParen (t :: rest')) (t :: later) from
        if_neg (of_decide_eq_false hclose), Outcome.map_error]

/-- **Where the reader of arguments fails**: in an argument, or after one that is followed neither
by a comma nor by the closing parenthesis. -/
theorem diagnoses_closedList : Diagnoses closedList := by
  intro ts
  -- the list after a comma is shorter, whatever expression stands before the comma
  induction hn : ts.length using Nat.strongRecOn generalizing ts with
  | ind n ih =>
    subst hn
    intro e rest h
    cases hread : expression ts with
    | error e' rest' =>
      rw [closedList_of_error hread] at h
      cases h
      obtain ⟨before, rfl, hstuck⟩ := diagnoses_expression ts e rest hread
      exact ⟨before, rfl, hstuck.closedList⟩
    | ok node rest' =>
      have hlength := rest_length_lt_of_expression hread
      obtain ⟨front, rfl, hfront, hagain⟩ := delimits_expression ts node rest' hread
      cases hcomma : nextIs .comma rest' with
      | true =>
        match rest' with
        | comma :: rest'' =>
          have hkind : comma.kind = .comma := of_decide_eq_true hcomma
          rw [closedList_of_comma ⟨comma, hkind⟩ hread, Outcome.map_eq_error_iff] at h
          obtain ⟨before, rfl, hstuck⟩ :=
            ih rest''.length (Nat.lt_of_succ_lt hlength) rest'' rfl e rest h
          refine ⟨front ++ [comma] ++ before, by simp, ?_⟩
          have hinside : ∀ t ∈ front ++ [comma], isEnd t = false :=
            not_isEnd_concat hfront ⟨comma, hkind⟩ (by decide)
          refine hstuck.of_append (front ++ [comma]) (node :: ·) hinside fun later => ?_
          refine closedList_of_comma ⟨comma, hkind⟩ ?_
          rw [List.append_assoc]
          exact hagain _
      | false =>
        rw [closedList_of_last hread hcomma, Outcome.map_eq_error_iff] at h
        cases hclose : nextIs .rightParen rest' with
        | true =>
          match rest' with
          | close :: rest'' =>
            rw [expect_eq_ok_iff.mpr ⟨of_decide_eq_true hclose, rfl⟩] at h
            cases h
        | false =>
          obtain ⟨rfl, rfl⟩ : e = missing .rightParen rest' ∧ rest = rest' := by
            match rest' with
            | [] =>
              cases h
              exact ⟨rfl, rfl⟩
            | t :: rest'' =>
              rw [expect, if_neg (of_decide_eq_false hclose)] at h
              cases h
              exact ⟨rfl, rfl⟩
          exact ⟨front, rfl, stuck_closedList_of_last hfront hagain hcomma hclose⟩

/-- With a closing parenthesis next there are no arguments. -/
theorem closedArguments_of_close (close : TokenOf .rightParen) (ts : List Token) :
    closedArguments (close.val :: ts) = .ok [] ts := by
  have hclose : arguments (close.val :: ts) = .ok [] (close.val :: ts) :=
    if_pos (decide_eq_true close.property)
  rw [closedArguments, bind_of_ok hclose, bind_of_ok (expect_eq_ok_iff.mpr ⟨close.property, rfl⟩)]
  rfl

/-- Otherwise there is at least one. -/
theorem closedArguments_eq_closedList {ts : List Token} (h : nextIs .rightParen ts = false) :
    closedArguments ts = closedList ts := by
  have hargs : arguments ts = argumentList ts := if_neg (by simp [h])
  unfold closedArguments closedList bind
  rw [hargs]

theorem delimits_closedArguments : Delimits closedArguments := by
  intro ts nodes rest h
  obtain ⟨nodes', r, hargs, h⟩ := bind_eq_ok_iff.mp h
  obtain ⟨close, r', hexpect, h⟩ := bind_eq_ok_iff.mp h
  cases h
  obtain ⟨hclose, rfl⟩ := expect_eq_ok_iff.mp hexpect
  obtain ⟨xs, rfl, rfl⟩ := (arguments_eq_ok_iff ⟨close, hclose⟩).mp hargs
  have hinside : ∀ t ∈ xs.tokens ++ [close], isEnd t = false :=
    not_isEnd_concat xs.not_isEnd ⟨close, hclose⟩ (by decide)
  refine ⟨xs.tokens ++ [close], by simp, hinside, fun later => ?_⟩
  have hagain : arguments (xs.tokens ++ [close] ++ later) = .ok xs.nodes (close :: later) :=
    (arguments_eq_ok_iff ⟨close, hclose⟩).mpr ⟨xs, by simp, rfl⟩
  rw [closedArguments, bind_of_ok hagain, bind_of_ok (expect_eq_ok_iff.mpr ⟨hclose, rfl⟩)]
  rfl

theorem completable_closedArguments : Completable closedArguments where
  satisfiable := ⟨[(sample .rightParen).val], [], closedArguments_of_close (sample .rightParen)⟩
  diagnoses ts e rest h := by
    cases hclose : nextIs .rightParen ts with
    | true =>
      match ts with
      | close :: ts =>
        rw [closedArguments_of_close ⟨close, of_decide_eq_true hclose⟩] at h
        cases h
    | false =>
      rw [closedArguments_eq_closedList hclose] at h
      obtain ⟨before, rfl, hstuck⟩ := diagnoses_closedList ts e rest h
      refine ⟨before, rfl, hstuck.of_lookahead (fun ts => closedArguments_eq_closedList) ?_ hclose⟩
      exact fun close => ⟨[], [], closedArguments_of_close close⟩

/-! ## Calls -/

/-- **Failures of readers made of readers.** -/
theorem composes_completable : Composes (fun _ => True) @Completable where
  pure := completable_pure
  expect hkind _ hq := (readsOne_expect _).bind hkind hq
  memberDot _ hq := (readsOne_memberDot _).bind (by decide) hq
  arguments {_ q} hq := by
    have h := completable_closedArguments.bind delimits_closedArguments hq
    simp only [closedArguments, bind_assoc] at h
    exact h

/-- Reads a call from its first argument to the semicolon. -/
def callRest : Parser (List Node) :=
  bind closedArguments fun nodes => bind (expect .semicolon) fun _ => pure nodes

theorem callTail_eq : callTail = bind (expect .leftParen) fun _ => callRest := by
  simp only [callRest, closedArguments, bind_assoc]
  rfl

theorem completable_callRest : Completable callRest :=
  completable_closedArguments.bind delimits_closedArguments fun nodes =>
    composes_completable.skip (by decide) (completable_pure nodes)

theorem coreCall_cons (core : TokenOf .core) (ts : List Token) :
    coreCall (core.val :: ts) = coreMember core.val ts :=
  bind_of_ok (expect_eq_ok_iff.mpr ⟨core.property, rfl⟩)

theorem directCall_cons (method : Token) (opening : TokenOf .leftParen) (ts : List Token) :
    directCall method (opening.val :: ts)
      = (callRest ts).map fun nodes => ⟨.call, .null, ⟨.method, method.value, []⟩ :: nodes⟩ := by
  have htail : callTail (opening.val :: ts) = callRest ts := by
    rw [callTail_eq, bind_of_ok (expect_eq_ok_iff.mpr ⟨opening.property, rfl⟩)]
  show bind callTail (fun nodes => pure _) (opening.val :: ts) = _
  unfold bind
  rw [htail]
  cases callRest ts <;> rfl

/-! ## Statements -/

/-- The kinds of tokens that a statement may start with. -/
def statementKinds : List TokenKind := [.core, .identifier, .semicolon]

/-- A statement may start with any token of one of its kinds. -/
theorem exists_statement {t : Token} (ht : t.kind ∈ statementKinds) :
    ∃ (s : Statement) (ts : List Token), s.tokens = t :: ts := by
  let tail : Tail := ⟨sample .leftParen, .none, sample .rightParen, sample .semicolon⟩
  simp only [statementKinds, List.mem_cons, List.not_mem_nil, or_false] at ht
  obtain ht | ht | ht := ht
  · exact ⟨.coreCall ⟨t, ht⟩ (sample .dot) (sample .identifier) tail, _, rfl⟩
  · exact ⟨.directCall ⟨t, ht⟩ tail, _, rfl⟩
  · exact ⟨.empty ⟨t, ht⟩, [], rfl⟩

/-- A reader that stands where a statement is missing. -/
theorem stuck_missingStatement {ts : List Token}
    (hagain : ∀ t ts', ts = t :: ts' → t.kind ∉ statementKinds) :
    Stuck Anything statement [] (missingStatement ts) ts where
  inside := by simp
  expects := by
    refine ⟨_, statementKinds, none, rfl, List.cons_ne_nil _ _, fun t ht => ?_⟩
    obtain ⟨s, ts', hs⟩ := exists_statement ht
    refine ⟨ts', s.node?, fun later _ => ?_⟩
    rw [List.nil_append, ← List.cons_append, ← hs, statement_tokens]
  again := by
    rintro t ts' rfl later
    have ht := hagain t ts' rfl
    simp only [statementKinds, List.mem_cons, List.not_mem_nil, or_false, not_or] at ht
    exact statement_of_other ht.2.2 ht.1 ht.2.1

/-- A failure of a direct call. -/
theorem stuckIn_directCall (method : TokenOf .identifier) (opening : TokenOf .leftParen)
    {ts rest : List Token} {e : ScriptError} (h : callRest ts = .error e rest) :
    StuckIn statement (method.val :: opening.val :: ts) e rest := by
  obtain ⟨before, rfl, hstuck⟩ := completable_callRest.diagnoses ts e rest h
  have hread : ∀ later, statement ([method.val, opening.val] ++ later)
      = (callRest later).map (some ∘ fun nodes =>
          ⟨.call, .null, ⟨.method, method.val.value, []⟩ :: nodes⟩) := by
    intro later
    have hparen : nextIs .leftParen (opening.val :: later) = true :=
      decide_eq_true opening.property
    refine (statement_of_direct method hparen).trans ?_
    rw [directCall_cons method.val opening, Outcome.map_map]
  refine ⟨[method.val, opening.val] ++ before, rfl, hstuck.of_append _ _ (fun t ht => ?_) hread⟩
  simp only [List.mem_cons, List.not_mem_nil, or_false] at ht
  obtain rfl | rfl := ht
  · exact isEnd_val (by decide) method
  · exact isEnd_val (by decide) opening

/-- A failure of a call on an object. After the name of the object a parenthesis would make the
statement a direct call. -/
theorem stuckIn_objectCall (object : TokenOf .identifier) {ts rest : List Token} {e : ScriptError}
    (hparen : nextIs .leftParen ts = false) (h : objectCall object.val ts = .error e rest) :
    StuckIn statement (object.val :: ts) e rest := by
  obtain ⟨before, rfl, hstuck⟩ := (composes_completable.objectCall trivial).diagnoses ts e rest h
  have hcall : Stuck Anything (fun later => (objectCall object.val later).map some) before e rest :=
    hstuck.of_append [] some (by simp) fun later => rfl
  have hname : StuckIn (fun later => statement (object.val :: later)) (before ++ rest) e rest := by
    refine ⟨before, rfl, hcall.of_lookahead (fun later => statement_of_object object) ?_ hparen⟩
    intro opening
    let tail : Tail := ⟨opening, .none, sample .rightParen, sample .semicolon⟩
    exact ⟨_, _, statement_tokens (.directCall object tail)⟩
  exact hname.cons (isEnd_val (by decide) object) fun later => rfl

/-- **Where the reader of statements fails.** -/
theorem diagnoses_statement : Diagnoses statement := by
  intro ts e rest h
  match ts with
  | [] =>
    cases h
    exact ⟨[], rfl, stuck_missingStatement (by simp)⟩
  | t :: ts =>
    by_cases hsemicolon : t.kind = .semicolon
    · rw [statement_of_semicolon ⟨t, hsemicolon⟩] at h
      cases h
    by_cases hcore : t.kind = .core
    · rw [statement_of_core ⟨t, hcore⟩, coreCall_cons ⟨t, hcore⟩, Outcome.map_eq_error_iff] at h
      obtain ⟨before, rfl, hstuck⟩ := (composes_completable.coreMember t).diagnoses ts e rest h
      refine ⟨[t] ++ before, rfl, hstuck.of_append [t] some ?_ fun later => ?_⟩
      · simpa using isEnd_val (by decide) ⟨t, hcore⟩
      · exact (statement_of_core ⟨t, hcore⟩ later).trans
          (congrArg (Outcome.map some) (coreCall_cons ⟨t, hcore⟩ later))
    by_cases hidentifier : t.kind = .identifier
    · -- a name is called directly if a parenthesis follows, and is an object otherwise
      cases hparen : nextIs .leftParen ts with
      | true =>
        match ts with
        | opening :: ts =>
          have hopening : opening.kind = .leftParen := of_decide_eq_true hparen
          rw [statement_of_direct ⟨t, hidentifier⟩ hparen, directCall_cons t ⟨opening, hopening⟩,
            Outcome.map_eq_error_iff, Outcome.map_eq_error_iff] at h
          exact stuckIn_directCall ⟨t, hidentifier⟩ ⟨opening, hopening⟩ h
      | false =>
        rw [statement_of_object ⟨t, hidentifier⟩ hparen, Outcome.map_eq_error_iff] at h
        exact stuckIn_objectCall ⟨t, hidentifier⟩ hparen h
    · rw [statement_of_other hsemicolon hcore hidentifier] at h
      cases h
      refine ⟨[], rfl, stuck_missingStatement ?_⟩
      rintro t' ts' hts
      obtain ⟨rfl, rfl⟩ := List.cons.inj hts
      simp [statementKinds, hsemicolon, hcore, hidentifier]

/-! ## Programs -/

/-- An end of input is next. -/
def EndsHere (ts : List Token) : Prop := nextIs .endOfInput ts = true

/-- A failure of a statement is a failure of the program: after a statement, the program may end. -/
theorem Stuck.statements {before rest : List Token} {e : ScriptError}
    (hend : nextIs .endOfInput (before ++ rest) = false)
    (h : Stuck Anything statement before e rest) : Stuck EndsHere statements before e rest where
  inside := h.inside
  expects := h.expects_imp fun t after node? hafter => by
    refine ⟨after, node?.toList, fun later hlater => ?_⟩
    rw [statements_of_statement (hafter later trivial), statements_of_end hlater, Outcome.map_ok,
      List.append_nil]
  again := by
    rintro t rest' rfl later
    refine statements_of_error ?_ (h.again t rest' rfl later)
    cases before with
    | nil => exact hend
    | cons u before => exact hend

/-- **Where the reader of programs fails**: in one of its statements, behind the statements that it
has read. -/
theorem stuck_of_statements {ts rest : List Token} {e : ScriptError}
    (h : statements ts = .error e rest) :
    ∃ before, ts = before ++ rest ∧ Stuck EndsHere statements before e rest := by
  fun_induction statements ts with
  | case1 => cases h
  | case2 ts hend e' rest' hstatement =>
    cases h
    obtain ⟨before, rfl, hstuck⟩ := diagnoses_statement ts e rest hstatement
    exact ⟨before, rfl, hstuck.statements (by simpa using hend)⟩
  | case3 => cases h
  | case4 ts hend node? rest' hstatement e' rest'' heq ih =>
    cases h
    obtain ⟨s, rfl, rfl⟩ := statement_eq_ok_iff.mp hstatement
    obtain ⟨before, rfl, hstuck⟩ := ih heq
    refine ⟨s.tokens ++ before, (List.append_assoc _ _ _).symm, ?_⟩
    refine hstuck.of_append s.tokens (s.node?.toList ++ ·) s.not_isEnd fun later => ?_
    exact statements_of_statement (statement_tokens s later)

end CallScript.Parser
