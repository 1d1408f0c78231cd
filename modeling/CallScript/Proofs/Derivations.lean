import CallScript.Proofs.Grammar

/-!
# A reader answers exactly where there is a derivation

For every rule of the grammar there is a reader of tokens, and this module says of each what its
answers are: the reader answers with a tree and leaves some tokens exactly when a derivation of its
rule derives what it consumed and stands for that tree (`expression_eq_ok_iff`,
`callTail_eq_ok_iff`, `statement_eq_ok_iff`, `statements_eq_ok_iff`).

The reader of expressions does not call itself for the elements of an array; it carries the arrays
that are still open. From a derivation to the answer this costs nothing: reading an expression
inside open arrays comes down to going on after its tree (`expressionWithin_tokens`). The way back
needs an invariant, which says what the open arrays still demand of the tokens: each of them takes
its remaining elements and its closing bracket, and hands the array it completes to the next
(`Closes`).
-/

namespace CallScript

variable {α β γ : Type}

namespace Outcome

/-- An outcome with its answer changed by a function. -/
def map (f : α → β) : Outcome α → Outcome β
  | .ok a rest => .ok (f a) rest
  | .error e rest => .error e rest

@[simp] theorem map_ok (f : α → β) (a : α) (rest : List Token) :
    (Outcome.ok a rest).map f = .ok (f a) rest := rfl

@[simp] theorem map_error (f : α → β) (e : ScriptError) (rest : List Token) :
    (Outcome.error e rest : Outcome α).map f = .error e rest := rfl

theorem map_map (f : α → β) (g : β → γ) (o : Outcome α) : (o.map f).map g = o.map (g ∘ f) := by
  cases o <;> rfl

/-- What is mapped succeeds where it does unmapped. -/
theorem map_eq_ok_iff {f : α → β} {o : Outcome α} {b : β} {rest : List Token} :
    o.map f = .ok b rest ↔ ∃ a, o = .ok a rest ∧ f a = b := by
  cases o with
  | ok a r =>
    constructor
    · intro h
      cases h
      exact ⟨a, rfl, rfl⟩
    · rintro ⟨a', h, rfl⟩
      cases h
      rfl
  | error e r => simp

theorem map_eq_error_iff {f : α → β} {o : Outcome α} {e : ScriptError} {rest : List Token} :
    o.map f = .error e rest ↔ o = .error e rest := by
  cases o <;> simp

end Outcome

namespace Parser

open Grammar

/-! ## One reader after another -/

/-- **Readers one after the other** succeed if both do, the second on the rest that the first
leaves. -/
theorem bind_eq_ok_iff {p : Parser α} {q : α → Parser β} {ts rest : List Token} {b : β} :
    bind p q ts = .ok b rest ↔ ∃ a r, p ts = .ok a r ∧ q a r = .ok b rest := by
  unfold bind
  cases p ts with
  | ok a r =>
    constructor
    · intro h
      exact ⟨a, r, rfl, h⟩
    · rintro ⟨a', r', h, h'⟩
      cases h
      exact h'
  | error e r => simp

/-- The same for readers that are put together by the monad. -/
theorem bind_of_ok {p : Parser α} {q : α → Parser β} {ts rest : List Token} {a : α}
    (h : p ts = .ok a rest) : bind p q ts = q a rest := by
  unfold bind
  rw [h]

/-- If the first reader fails, then so do both, at the same place. -/
theorem bind_of_error {p : Parser α} {q : α → Parser β} {ts rest : List Token} {e : ScriptError}
    (h : p ts = .error e rest) : bind p q ts = .error e rest := by
  unfold bind
  rw [h]

theorem monad_bind_eq_ok_iff {p : Parser α} {q : α → Parser β} {ts rest : List Token} {b : β} :
    (p >>= q) ts = .ok b rest ↔ ∃ a r, p ts = .ok a r ∧ q a r = .ok b rest :=
  bind_eq_ok_iff

theorem pure_eq_ok_iff {a b : α} {ts rest : List Token} :
    (Pure.pure a : Parser α) ts = .ok b rest ↔ a = b ∧ ts = rest := by
  show Outcome.ok a ts = .ok b rest ↔ _
  simp

/-- A token of a kind is read exactly if it is the next one. -/
theorem expect_eq_ok_iff {kind : TokenKind} {ts rest : List Token} {t : Token} :
    expect kind ts = .ok t rest ↔ t.kind = kind ∧ ts = t :: rest := by
  cases ts with
  | nil => simp [expect]
  | cons u us =>
    simp only [expect]
    split
    · next hu => grind
    · next hu => grind

/-! ## Expressions -/

mutual

/-- **Reading an expression inside open arrays** comes down to going on after its tree. -/
theorem expressionWithin_tokens (rest : List Token) :
    ∀ (e : Expression) (opened : List (List Node)),
      expressionWithin opened (e.tokens ++ rest) = closing e.node opened rest
  | .string t, opened => by
    simp [Expression.tokens, Expression.node, expressionWithin, t.property]
  | .number t, opened => by
    simp [Expression.tokens, Expression.node, expressionWithin, t.property]
  | .identifier t, opened => by
    simp [Expression.tokens, Expression.node, expressionWithin, t.property]
  | .array opening .none close, opened => by
    simp [Expression.tokens, Items.tokens, Expression.node, Items.nodes, expressionWithin,
      opening.property, close.property]
  | .array opening (.some first more) close, opened => by
    have hopen : expressionWithin opened
        ((Expression.array opening (.some first more) close).tokens ++ rest)
        = expressionWithin ([] :: opened) (first.tokens ++ (more.tokens ++ close.val :: rest)) := by
      simp [Expression.tokens, Items.tokens, expressionWithin, opening.property]
    rw [hopen, expressionWithin_tokens _ first, closing_tokens rest more]
    rfl

/-- Going on inside an open array takes the remaining elements and the closing bracket, and then
goes on after the whole array. -/
theorem closing_tokens (rest : List Token) :
    ∀ (more : More) (close : TokenOf .rightBracket) (node : Node) (elements : List Node)
      (outer : List (List Node)),
      closing node (elements :: outer) (more.tokens ++ close.val :: rest)
        = closing ⟨.array, .null, elements.reverse ++ node :: more.nodes⟩ outer rest
  | .done, close, node, elements, outer => by
    simp [More.tokens, More.nodes, closing, close.property]
  | .next comma item more, close, node, elements, outer => by
    have hcomma : closing node (elements :: outer)
        ((More.next comma item more).tokens ++ close.val :: rest)
        = expressionWithin ((node :: elements) :: outer)
          (item.tokens ++ (more.tokens ++ close.val :: rest)) := by
      simp [More.tokens, closing, comma.property]
    rw [hcomma, expressionWithin_tokens _ item, closing_tokens rest more]
    simp [More.nodes]

end

/-- **What open arrays demand of the tokens after an expression**, innermost first: each takes its
remaining elements and its closing bracket, and hands the array it completes to the next. With no
array open the expression is the answer. -/
def Closes : List (List Node) → Node → List Token → Node → List Token → Prop
  | [], node, ts, answer, rest => answer = node ∧ rest = ts
  | elements :: outer, node, ts, answer, rest =>
    ∃ (more : More) (close : TokenOf .rightBracket) (ts' : List Token),
      ts = more.tokens ++ close.val :: ts' ∧
        Closes outer ⟨.array, .null, elements.reverse ++ node :: more.nodes⟩ ts' answer rest

/-- What an answer of the reader of expressions tells: there is an expression and the open arrays
are closed after it, or the innermost array is closed at once because it has no elements. -/
def ClosesWithin (opened : List (List Node)) (ts : List Token) (answer : Node)
    (rest : List Token) : Prop :=
  (∃ (e : Expression) (ts' : List Token),
    ts = e.tokens ++ ts' ∧ Closes opened e.node ts' answer rest) ∨
  ∃ (outer : List (List Node)) (close : TokenOf .rightBracket) (ts' : List Token),
    opened = [] :: outer ∧ ts = close.val :: ts' ∧
      Closes outer ⟨.array, .null, []⟩ ts' answer rest

/-- A bracket that opens an array, and what closes it, are one more expression. -/
theorem ClosesWithin.open_array {opened : List (List Node)} {ts rest : List Token} {answer : Node}
    (opening : TokenOf .leftBracket) (h : ClosesWithin ([] :: opened) ts answer rest) :
    ClosesWithin opened (opening.val :: ts) answer rest := by
  obtain ⟨e, ts', rfl, more, close, ts'', rfl, hclose⟩ |
    ⟨outer, close, ts', houter, rfl, hclose⟩ := h
  · refine .inl ⟨.array opening (.some e more) close, ts'', ?_, hclose⟩
    simp [Expression.tokens, Items.tokens]
  · obtain rfl : opened = outer := (List.cons.inj houter).2
    refine .inl ⟨.array opening .none close, ts', ?_, hclose⟩
    simp [Expression.tokens, Items.tokens]

/-- A comma inside an open array, and what follows it, are more of its elements. -/
theorem ClosesWithin.comma {node : Node} {elements : List Node} {outer : List (List Node)}
    {ts rest : List Token} {answer : Node} (comma : TokenOf .comma)
    (h : ClosesWithin ((node :: elements) :: outer) ts answer rest) :
    Closes (elements :: outer) node (comma.val :: ts) answer rest := by
  obtain ⟨e, ts', rfl, more, close, ts'', rfl, hclose⟩ | ⟨outer', close, ts', houter, -, -⟩ := h
  · refine ⟨.next comma e more, close, ts'', ?_, ?_⟩
    · simp [More.tokens]
    · simpa [More.nodes] using hclose
  · exact absurd (List.cons.inj houter).1 (List.cons_ne_nil _ _)

/-- **Every answer of the reader of expressions has a derivation behind it.** Every step consumes a
token, so one induction on the tokens serves both readers. -/
theorem closesWithin_and_closes (ts : List Token) :
    (∀ opened answer rest, expressionWithin opened ts = .ok answer rest →
      ClosesWithin opened ts answer rest) ∧
    ∀ node opened answer rest, closing node opened ts = .ok answer rest →
      Closes opened node ts answer rest := by
  induction ts with
  | nil =>
    refine ⟨fun opened answer rest h => ?_, fun node opened answer rest h => ?_⟩
    · rw [expressionWithin] at h
      cases h
    · cases opened with
      | nil =>
        rw [closing] at h
        cases h
        exact ⟨rfl, rfl⟩
      | cons elements outer =>
        rw [closing] at h
        cases h
  | cons t ts ih =>
    refine ⟨fun opened answer rest h => ?_, fun node opened answer rest h => ?_⟩
    · unfold expressionWithin at h
      split at h
      · next hkind => exact .inl ⟨.string ⟨t, hkind⟩, ts, rfl, ih.2 _ _ _ _ h⟩
      · next hkind => exact .inl ⟨.number ⟨t, hkind⟩, ts, rfl, ih.2 _ _ _ _ h⟩
      · next hkind => exact .inl ⟨.identifier ⟨t, hkind⟩, ts, rfl, ih.2 _ _ _ _ h⟩
      -- what is read inside the new array becomes, with its brackets, an element of the outer one
      · next hkind => exact (ih.1 _ _ _ h).open_array ⟨t, hkind⟩
      · next outer hkind =>
        exact .inr ⟨outer, ⟨t, hkind⟩, ts, rfl, rfl, ih.2 _ _ _ _ h⟩
      · cases h
    · cases opened with
      | nil =>
        rw [closing] at h
        cases h
        exact ⟨rfl, rfl⟩
      | cons elements outer =>
        rw [closing] at h
        split at h
        · next hkind => exact (ih.1 _ _ _ h).comma ⟨t, hkind⟩
        · split at h
          · next hkind =>
            refine ⟨.done, ⟨t, hkind⟩, ts, rfl, ?_⟩
            simpa [More.nodes] using ih.2 _ _ _ _ h
          · cases h

/-- **The reader of expressions answers exactly where an expression stands.** -/
theorem expression_eq_ok_iff {ts rest : List Token} {node : Node} :
    expression ts = .ok node rest ↔ ∃ e : Expression, ts = e.tokens ++ rest ∧ node = e.node := by
  constructor
  · intro h
    obtain ⟨e, ts', rfl, rfl, rfl⟩ | ⟨outer, close, ts', houter, -, -⟩ :=
      (closesWithin_and_closes ts).1 [] node rest h
    · exact ⟨e, rfl, rfl⟩
    · exact absurd houter (List.cons_ne_nil _ _).symm
  · rintro ⟨e, rfl, rfl⟩
    rw [expression, expressionWithin_tokens, closing]

/-! ## Arguments -/

/-- An argument list fails with its first expression. -/
theorem argumentList_of_error {ts rest : List Token} {e : ScriptError}
    (h : expression ts = .error e rest) : argumentList ts = .error e rest := by
  rw [argumentList]
  split <;> simp_all

/-- An expression without a comma after it is the last argument. -/
theorem argumentList_of_last {ts rest : List Token} {node : Node}
    (h : expression ts = .ok node rest) (hrest : nextIs .comma rest = false) :
    argumentList ts = .ok [node] rest := by
  rw [argumentList]
  split
  · simp_all
  · simp_all
  · next t rest' h' =>
    obtain ⟨rfl, rfl⟩ : _ ∧ _ := by simpa using h.symm.trans h'
    rw [if_neg (of_decide_eq_false hrest)]

/-- After a comma there are more arguments. -/
theorem argumentList_of_comma {ts rest : List Token} {node : Node} {t : Token}
    (h : expression ts = .ok node (t :: rest)) (ht : t.kind = .comma) :
    argumentList ts = (argumentList rest).map (node :: ·) := by
  rw [argumentList]
  split
  · simp_all
  · simp_all
  · next t' rest' h' =>
    obtain ⟨rfl, rfl, rfl⟩ : _ ∧ _ ∧ _ := by simpa using h.symm.trans h'
    rw [if_pos ht]
    cases argumentList rest <;> rfl

/-- Reading the tokens of some expressions gives back their nodes. The induction is on the
expressions that follow. -/
theorem argumentList_tokens {rest : List Token} (hrest : nextIs .comma rest = false) :
    ∀ (first : Expression) (more : More),
      argumentList (first.tokens ++ (more.tokens ++ rest)) = .ok (first.node :: more.nodes) rest
  | first, .done => by
    exact argumentList_of_last (expression_eq_ok_iff.mpr ⟨first, rfl, rfl⟩) hrest
  | first, .next comma item more => by
    have hfirst : expression (first.tokens ++ ((More.next comma item more).tokens ++ rest))
        = .ok first.node (comma.val :: (item.tokens ++ (more.tokens ++ rest))) :=
      expression_eq_ok_iff.mpr ⟨first, by simp [More.tokens], rfl⟩
    rw [argumentList_of_comma hfirst comma.property, argumentList_tokens hrest item more]
    rfl

/-- What is read as an argument list is derived as one. -/
theorem exists_items_of_argumentList {ts rest : List Token} {nodes : List Node}
    (h : argumentList ts = .ok nodes rest) :
    ∃ (first : Expression) (more : More),
      ts = first.tokens ++ (more.tokens ++ rest) ∧ nodes = first.node :: more.nodes := by
  fun_induction argumentList ts generalizing nodes with
  | case1 => cases h
  | case2 ts node hexp =>
    cases h
    obtain ⟨first, hts, rfl⟩ := expression_eq_ok_iff.mp hexp
    exact ⟨first, .done, by simpa [More.tokens] using hts, rfl⟩
  | case3 ts node t rest' hexp ht nodes' rest'' heq ih =>
    cases h
    obtain ⟨first, rfl, rfl⟩ := expression_eq_ok_iff.mp hexp
    obtain ⟨item, more, rfl, rfl⟩ := ih heq
    exact ⟨first, .next ⟨t, ht⟩ item more, by simp [More.tokens], rfl⟩
  | case4 => cases h
  | case5 ts node t rest' hexp ht =>
    cases h
    obtain ⟨first, hts, rfl⟩ := expression_eq_ok_iff.mp hexp
    exact ⟨first, .done, by simpa [More.tokens] using hts, rfl⟩

/-- **The arguments of a call**, up to the closing parenthesis. -/
theorem arguments_eq_ok_iff {ts rest : List Token} {nodes : List Node}
    (close : TokenOf .rightParen) :
    arguments ts = .ok nodes (close.val :: rest) ↔
      ∃ xs : Items, ts = xs.tokens ++ close.val :: rest ∧ nodes = xs.nodes := by
  have hcomma : nextIs .comma (close.val :: rest) = false := by simp [nextIs, close.property]
  constructor
  · intro h
    unfold arguments at h
    split at h
    · cases h
      exact ⟨.none, rfl, rfl⟩
    · obtain ⟨first, more, rfl, rfl⟩ := exists_items_of_argumentList h
      exact ⟨.some first more, by simp [Items.tokens], rfl⟩
  · rintro ⟨xs, rfl, rfl⟩
    cases xs with
    | none => simp [arguments, Items.tokens, Items.nodes, nextIs, close.property]
    | some first more =>
      obtain ⟨t, ts, hts, ht⟩ := first.exists_first
      have hparen : nextIs .rightParen ((Items.some first more).tokens ++ close.val :: rest)
          = false := by
        have hkind : t.kind ≠ .rightParen := fun h => absurd (h ▸ ht) (by decide)
        simp [Items.tokens, hts, nextIs, hkind]
      rw [arguments, hparen, if_neg Bool.false_ne_true, Items.tokens, List.append_assoc,
        argumentList_tokens hcomma]
      rfl

/-! ## Statements -/

/-- **The tail of a call is read exactly if it is derived.** -/
theorem callTail_eq_ok_iff {ts rest : List Token} {nodes : List Node} :
    callTail ts = .ok nodes rest ↔
      ∃ tail : Tail, ts = tail.tokens ++ rest ∧ nodes = tail.arguments.nodes := by
  simp only [callTail, monad_bind_eq_ok_iff, pure_eq_ok_iff, expect_eq_ok_iff]
  constructor
  · rintro ⟨opening, _, ⟨hopening, rfl⟩, nodes, _, hargs, closing, _, ⟨hclosing, rfl⟩,
      semicolon, _, ⟨hsemicolon, rfl⟩, rfl, rfl⟩
    obtain ⟨xs, rfl, rfl⟩ := (arguments_eq_ok_iff ⟨closing, hclosing⟩).mp hargs
    exact ⟨⟨⟨opening, hopening⟩, xs, ⟨closing, hclosing⟩, ⟨semicolon, hsemicolon⟩⟩,
      by simp [Tail.tokens], rfl⟩
  · rintro ⟨tail, rfl, rfl⟩
    refine ⟨tail.opening, _, ⟨tail.opening.property, rfl⟩, tail.arguments.nodes,
      tail.closing.val :: tail.semicolon.val :: rest, ?_, tail.closing, _,
      ⟨tail.closing.property, rfl⟩, tail.semicolon, rest, ⟨tail.semicolon.property, rfl⟩, rfl, rfl⟩
    exact (arguments_eq_ok_iff tail.closing).mpr ⟨tail.arguments, by simp, rfl⟩

theorem memberDot_eq_ok_iff {object : Token} {ts rest : List Token} {u : Unit} :
    memberDot object ts = .ok u rest ↔ ∃ dot : TokenOf .dot, ts = dot.val :: rest := by
  cases ts with
  | nil => simp [memberDot]
  | cons t ts =>
    simp only [memberDot]
    split
    · next ht =>
      constructor
      · intro h
        cases h
        exact ⟨⟨t, ht⟩, rfl⟩
      · rintro ⟨dot, h⟩
        rw [(List.cons.inj h).2]
    · next ht =>
      constructor
      · intro h
        cases h
      · rintro ⟨dot, h⟩
        exact absurd ((congrArg Token.kind (List.cons.inj h).1).trans dot.property) ht

/-- A call on the core is read exactly if it is derived. -/
theorem coreCall_eq_ok_iff {ts rest : List Token} {node : Node} :
    coreCall ts = .ok node rest ↔
      ∃ (core : TokenOf .core) (dot : TokenOf .dot) (method : TokenOf .identifier) (tail : Tail),
        ts = (Statement.coreCall core dot method tail).tokens ++ rest ∧
          some node = (Statement.coreCall core dot method tail).node? := by
  simp only [coreCall, coreMember, monad_bind_eq_ok_iff, pure_eq_ok_iff, expect_eq_ok_iff,
    callTail_eq_ok_iff]
  constructor
  · rintro ⟨core, _, ⟨hcore, rfl⟩, dot, _, ⟨hdot, rfl⟩, method, _, ⟨hmethod, rfl⟩, _, _,
      ⟨tail, rfl, rfl⟩, rfl, rfl⟩
    exact ⟨⟨core, hcore⟩, ⟨dot, hdot⟩, ⟨method, hmethod⟩, tail, rfl, rfl⟩
  · rintro ⟨core, dot, method, tail, rfl, hnode⟩
    exact ⟨core, _, ⟨core.property, rfl⟩, dot, _, ⟨dot.property, rfl⟩, method, _,
      ⟨method.property, rfl⟩, _, rest, ⟨tail, rfl, rfl⟩, (Option.some.inj hnode).symm, rfl⟩

/-- A call without an object is read exactly if it is derived. -/
theorem directCall_eq_ok_iff (method : TokenOf .identifier) {ts rest : List Token} {node : Node} :
    directCall method.val ts = .ok node rest ↔
      ∃ tail : Tail, ts = tail.tokens ++ rest ∧
        some node = (Statement.directCall method tail).node? := by
  simp only [directCall, monad_bind_eq_ok_iff, pure_eq_ok_iff, callTail_eq_ok_iff]
  constructor
  · rintro ⟨_, _, ⟨tail, rfl, rfl⟩, rfl, rfl⟩
    exact ⟨tail, rfl, rfl⟩
  · rintro ⟨tail, rfl, hnode⟩
    exact ⟨_, rest, ⟨tail, rfl, rfl⟩, (Option.some.inj hnode).symm, rfl⟩

/-- A call on an object is read exactly if it is derived. -/
theorem objectCall_eq_ok_iff (object : TokenOf .identifier) {ts rest : List Token} {node : Node} :
    objectCall object.val ts = .ok node rest ↔
      ∃ (dot : TokenOf .dot) (method : TokenOf .identifier) (tail : Tail),
        ts = dot.val :: method.val :: (tail.tokens ++ rest) ∧
          some node = (Statement.objectCall object dot method tail).node? := by
  simp only [objectCall, monad_bind_eq_ok_iff, pure_eq_ok_iff, memberDot_eq_ok_iff,
    expect_eq_ok_iff, callTail_eq_ok_iff]
  constructor
  · rintro ⟨_, _, ⟨dot, rfl⟩, method, _, ⟨hmethod, rfl⟩, _, _, ⟨tail, rfl, rfl⟩, rfl, rfl⟩
    exact ⟨dot, ⟨method, hmethod⟩, tail, rfl, rfl⟩
  · rintro ⟨dot, method, tail, rfl, hnode⟩
    exact ⟨(), _, ⟨dot, rfl⟩, method, _, ⟨method.property, rfl⟩, _, rest, ⟨tail, rfl, rfl⟩,
      (Option.some.inj hnode).symm, rfl⟩

/-- A call as a statement. -/
theorem bind_pure_some (p : Parser Node) (ts : List Token) :
    bind p (fun node => pure (some node)) ts = (p ts).map some := by
  unfold bind
  cases p ts <;> rfl

/-! The first token decides what a statement is, and after an identifier the second one does. -/

/-- A semicolon alone is an empty statement. -/
theorem statement_of_semicolon (semicolon : TokenOf .semicolon) (ts : List Token) :
    statement (semicolon.val :: ts) = .ok none ts := by
  simp only [statement, semicolon.property]

theorem statement_of_core (core : TokenOf .core) (ts : List Token) :
    statement (core.val :: ts)
      = (coreCall (core.val :: ts)).map some := by
  simp only [statement, core.property, bind_pure_some]

/-- A name before a parenthesis starts a call without an object. -/
theorem statement_of_direct (method : TokenOf .identifier) {ts : List Token}
    (h : nextIs .leftParen ts = true) :
    statement (method.val :: ts) = (directCall method.val ts).map some := by
  simp only [statement, method.property, h, if_true, bind_pure_some]

/-- A name before anything else starts a call on an object. -/
theorem statement_of_object (object : TokenOf .identifier) {ts : List Token}
    (h : nextIs .leftParen ts = false) :
    statement (object.val :: ts) = (objectCall object.val ts).map some := by
  simp only [statement, object.property, h, if_neg Bool.false_ne_true, bind_pure_some]

/-- Nothing else starts a statement. -/
theorem statement_of_other {t : Token} {ts : List Token} (hsemicolon : t.kind ≠ .semicolon)
    (hcore : t.kind ≠ .core) (hidentifier : t.kind ≠ .identifier) :
    statement (t :: ts) = .error (missingStatement (t :: ts)) (t :: ts) := by
  unfold statement
  split <;> simp_all

/-- **Reading a statement** where one stands. -/
theorem statement_tokens (s : Statement) (rest : List Token) :
    statement (s.tokens ++ rest) = .ok s.node? rest := by
  cases s with
  | empty semicolon => exact statement_of_semicolon semicolon rest
  | coreCall core dot method tail =>
    rw [Statement.tokens, List.cons_append, statement_of_core]
    exact Outcome.map_eq_ok_iff.mpr
      ⟨_, coreCall_eq_ok_iff.mpr ⟨core, dot, method, tail, rfl, rfl⟩, rfl⟩
  | directCall method tail =>
    have hparen : nextIs .leftParen (tail.tokens ++ rest) = true :=
      decide_eq_true tail.opening.property
    rw [Statement.tokens, List.cons_append, statement_of_direct method hparen]
    exact Outcome.map_eq_ok_iff.mpr
      ⟨_, (directCall_eq_ok_iff method).mpr ⟨tail, rfl, rfl⟩, rfl⟩
  | objectCall object dot method tail =>
    have hparen : nextIs .leftParen (dot.val :: method.val :: (tail.tokens ++ rest)) = false := by
      simp [nextIs, dot.property]
    rw [Statement.tokens, List.cons_append, List.cons_append, List.cons_append,
      statement_of_object object hparen]
    exact Outcome.map_eq_ok_iff.mpr
      ⟨_, (objectCall_eq_ok_iff object).mpr ⟨dot, method, tail, rfl, rfl⟩, rfl⟩

/-- **The reader of statements answers exactly where a statement stands.** -/
theorem statement_eq_ok_iff {ts rest : List Token} {node? : Option Node} :
    statement ts = .ok node? rest ↔
      ∃ s : Statement, ts = s.tokens ++ rest ∧ node? = s.node? := by
  constructor
  · intro h
    match ts with
    | [] => cases h
    | t :: ts =>
      by_cases hsemicolon : t.kind = .semicolon
      · rw [statement_of_semicolon ⟨t, hsemicolon⟩] at h
        cases h
        exact ⟨.empty ⟨t, hsemicolon⟩, rfl, rfl⟩
      by_cases hcore : t.kind = .core
      · rw [statement_of_core ⟨t, hcore⟩] at h
        obtain ⟨node, hread, rfl⟩ := Outcome.map_eq_ok_iff.mp h
        obtain ⟨core, dot, method, tail, hts, hnode⟩ := coreCall_eq_ok_iff.mp hread
        exact ⟨.coreCall core dot method tail, hts, hnode⟩
      by_cases hidentifier : t.kind = .identifier
      · cases hparen : nextIs .leftParen ts with
        | true =>
          rw [statement_of_direct ⟨t, hidentifier⟩ hparen] at h
          obtain ⟨node, hread, rfl⟩ := Outcome.map_eq_ok_iff.mp h
          obtain ⟨tail, rfl, hnode⟩ := (directCall_eq_ok_iff ⟨t, hidentifier⟩).mp hread
          exact ⟨.directCall ⟨t, hidentifier⟩ tail, rfl, hnode⟩
        | false =>
          rw [statement_of_object ⟨t, hidentifier⟩ hparen] at h
          obtain ⟨node, hread, rfl⟩ := Outcome.map_eq_ok_iff.mp h
          obtain ⟨dot, method, tail, rfl, hnode⟩ :=
            (objectCall_eq_ok_iff ⟨t, hidentifier⟩).mp hread
          exact ⟨.objectCall ⟨t, hidentifier⟩ dot method tail, rfl, hnode⟩
      · rw [statement_of_other hsemicolon hcore hidentifier] at h
        cases h
  · rintro ⟨s, rfl, rfl⟩
    exact statement_tokens s rest

/-! ## Programs -/

theorem statements_of_end {ts : List Token} (h : nextIs .endOfInput ts = true) :
    statements ts = .ok [] ts := by
  rw [statements, if_pos h]

theorem statements_of_error {ts rest : List Token} {e : ScriptError}
    (hend : nextIs .endOfInput ts = false) (h : statement ts = .error e rest) :
    statements ts = .error e rest := by
  rw [statements, if_neg (by simp [hend])]
  split <;> simp_all

/-- A statement in front of others. -/
theorem statements_of_statement {ts rest : List Token} {node? : Option Node}
    (h : statement ts = .ok node? rest) :
    statements ts = (statements rest).map (node?.toList ++ ·) := by
  have hend : nextIs .endOfInput ts = false := by
    match ts with
    | [] => rfl
    | t :: ts =>
      refine decide_eq_false fun ht => ?_
      rw [statement_of_other (by simp [ht]) (by simp [ht]) (by simp [ht])] at h
      cases h
  rw [statements, if_neg (by simp [hend])]
  split
  · simp_all
  · next node?' rest' h' =>
    obtain ⟨rfl, rfl⟩ : _ ∧ _ := by simpa using h.symm.trans h'
    cases statements rest <;> rfl

/-- **Reading statements in front of any tokens** comes down to reading those tokens. -/
theorem statements_tokens (d : Program) (rest : List Token) :
    statements (d.tokens ++ rest) = (statements rest).map (d.nodes ++ ·) := by
  induction d with
  | nil =>
    show statements rest = _
    cases statements rest <;> rfl
  | cons s d ih =>
    rw [Program.tokens_cons, List.append_assoc,
      statements_of_statement (statement_tokens s _), ih, Outcome.map_map, Program.nodes_cons]
    refine congrArg (Outcome.map · (statements rest)) (funext fun nodes => ?_)
    exact (List.append_assoc _ _ _).symm

/-- **The reader of programs answers exactly where a program stands**, up to an end of input. -/
theorem statements_eq_ok_iff {ts rest : List Token} {nodes : List Node} :
    statements ts = .ok nodes rest ↔
      nextIs .endOfInput rest = true ∧
        ∃ d : Program, ts = d.tokens ++ rest ∧ nodes = d.nodes := by
  constructor
  · intro h
    fun_induction statements ts generalizing nodes with
    | case1 ts hend =>
      cases h
      exact ⟨hend, [], rfl, rfl⟩
    | case2 => cases h
    | case3 ts _ node? rest' hstatement nodes' rest'' heq ih =>
      cases h
      obtain ⟨hend, d, rfl, rfl⟩ := ih heq
      obtain ⟨s, rfl, rfl⟩ := statement_eq_ok_iff.mp hstatement
      exact ⟨hend, s :: d, by simp, (Program.nodes_cons s d).symm⟩
    | case4 => cases h
  · rintro ⟨hend, d, rfl, rfl⟩
    rw [statements_tokens, statements_of_end hend, Outcome.map_ok, List.append_nil]

end Parser

end CallScript
