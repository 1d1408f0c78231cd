import CallScript.Proofs.Derivations

/-!
# What a reader replies

A reader looks at the kinds and the values of tokens and at nothing else: places only pass through
it into its errors. So what it does with some tokens can be said without their places, by a `Reply`.
This is an answer, or else a complaint in one of a few fixed wordings (`Saying`), together with the
number of tokens that were taken. A reader that replies in this way does so on all tokens that
differ at most in their places (`Replies`).

That holds of every reader of the grammar. For readers made of readers it follows from their parts
(`composes_replies`); the loops over expressions, arguments and statements follow their own
recursion. What readers leave, where their errors stand and what these say can all be read off the
replies.
-/

namespace CallScript

/-- The kind and the value of a token. -/
def Token.lexeme (t : Token) : TokenKind × Value := (t.kind, t.value)

namespace Parser

variable {α β : Type} {Quoted : Token → Prop}

/-! ## Wordings -/

/-- **All that a reader can say.** Only the complaint about a name that no method follows quotes
anything. -/
inductive Saying (Quoted : Token → Prop) : String → Prop where
  | missing (wanted found : TokenKind) :
      Saying Quoted ("Expected " ++ wanted.name ++ " but found " ++ found.name)
  | nothing : Saying Quoted "Unexpected end of input"
  | expression (found : TokenKind) :
      Saying Quoted ("Cannot parse expression starting with " ++ found.name)
  | statement (found : TokenKind) :
      Saying Quoted ("Cannot parse statement starting with " ++ found.name)
  | member {object : Token} (h : Quoted object) :
      Saying Quoted ("Expected method call on '" ++ object.name ++ "'")

/-- The kind of the token a reader stands at. -/
def foundKind : List Token → TokenKind
  | [] => .endOfInput
  | t :: _ => t.kind

/-- What is found is named by its kind. -/
theorem foundName_eq (ts : List Token) : foundName ts = (foundKind ts).name := by
  cases ts <;> rfl

/-! ## Replies -/

/-- **What a reader replies**, and how many tokens it has taken then. -/
inductive Reply (α : Type) where
  | answer (a : α) (taken : Nat)
  | complaint (message : String) (expected : List String) (suggestion : Option String) (taken : Nat)

namespace Reply

/-- The outcome of a reply to some tokens. -/
def on : Reply α → List Token → Outcome α
  | answer a taken, ts => .ok a (ts.drop taken)
  | complaint message expected suggestion taken, ts =>
    .error (unexpected message expected suggestion (ts.drop taken)) (ts.drop taken)

/-- A reply in one of the wordings of readers. -/
def Says (Quoted : Token → Prop) : Reply α → Prop
  | answer _ _ => True
  | complaint message _ _ _ => Saying Quoted message

/-- The reply of a reader that has taken some tokens before. -/
def after (n : Nat) : Reply α → Reply α
  | answer a taken => answer a (n + taken)
  | complaint message expected suggestion taken => complaint message expected suggestion (n + taken)

/-- A reply with its answer changed. -/
def map (f : α → β) : Reply α → Reply β
  | answer a taken => answer (f a) taken
  | complaint message expected suggestion taken => complaint message expected suggestion taken

/-- A reply after some tokens is the reply on the rest. -/
theorem on_after (n : Nat) (r : Reply α) (ts : List Token) :
    (r.after n).on ts = r.on (ts.drop n) := by
  cases r <;> simp [after, on, List.drop_drop]

theorem Says.after {r : Reply α} (h : r.Says Quoted) (n : Nat) : (r.after n).Says Quoted := by
  cases r <;> exact h

/-- What a reply is mapped to is what it answers mapped. -/
theorem on_map (f : α → β) (r : Reply α) (ts : List Token) :
    (r.map f).on ts = (r.on ts).map f := by
  cases r <;> rfl

theorem Says.map {r : Reply α} (h : r.Says Quoted) (f : α → β) : (r.map f).Says Quoted := by
  cases r <;> exact h

end Reply

/-! ## Readers that reply -/

/-- Tokens that differ at most in their places. -/
def Alike (ts ts' : List Token) : Prop := ts.map Token.lexeme = ts'.map Token.lexeme

theorem Alike.drop {ts ts' : List Token} (h : Alike ts ts') (n : Nat) :
    Alike (ts.drop n) (ts'.drop n) := by
  unfold Alike at *
  rw [List.map_drop, List.map_drop, h]

theorem Alike.eq_nil {ts : List Token} (h : Alike ts []) : ts = [] :=
  List.map_eq_nil_iff.mp h

/-- Token lists that are alike have first tokens of one kind and value, and are alike behind
them. -/
theorem Alike.exists_cons {t : Token} {ts ts' : List Token} (h : Alike ts' (t :: ts)) :
    ∃ t' rest, ts' = t' :: rest ∧ t'.kind = t.kind ∧ t'.value = t.value ∧ Alike rest ts := by
  obtain ⟨t', rest, rfl, hlexeme, hrest⟩ := List.map_eq_cons_iff.mp h
  exact ⟨t', rest, rfl, congrArg Prod.fst hlexeme, congrArg Prod.snd hlexeme, hrest⟩

/-- Token lists that are alike have the same kind of token to offer. -/
theorem Alike.foundKind_eq {ts ts' : List Token} (h : Alike ts ts') :
    foundKind ts = foundKind ts' := by
  cases ts' with
  | nil => rw [h.eq_nil]
  | cons t ts' =>
    obtain ⟨t', rest, rfl, hkind, -, -⟩ := h.exists_cons
    exact hkind

theorem nextIs_eq (kind : TokenKind) {ts ts' : List Token} (h : Alike ts ts') :
    nextIs kind ts = nextIs kind ts' := by
  cases ts' with
  | nil => rw [h.eq_nil]
  | cons t ts' =>
    obtain ⟨t', rest, rfl, hkind, -, -⟩ := h.exists_cons
    rw [nextIs, nextIs, hkind]

/-- A reader that replies to some tokens, whatever their places. -/
def RepliesTo (Quoted : Token → Prop) (ts : List Token) (p : Parser α) : Prop :=
  ∃ r : Reply α, r.Says Quoted ∧ ∀ ts', Alike ts' ts → p ts' = r.on ts'

/-- Tokens whose names may be quoted. -/
def Quotable (Quoted : Token → Prop) (ts : List Token) : Prop :=
  ∀ t ∈ ts, t.kind = .identifier → Quoted t

/-- **A reader that tells nothing from places.** -/
def Replies (Quoted : Token → Prop) (p : Parser α) : Prop :=
  ∀ ts, Quotable Quoted ts → RepliesTo Quoted ts p

theorem Quotable.drop {ts : List Token} (h : Quotable Quoted ts) (n : Nat) :
    Quotable Quoted (ts.drop n) :=
  fun t ht => h t (List.mem_of_mem_drop ht)

theorem Quotable.tail {t : Token} {ts : List Token} (h : Quotable Quoted (t :: ts)) :
    Quotable Quoted ts :=
  h.drop 1

namespace RepliesTo

variable {ts : List Token} {p : Parser α}

/-- A reader that answers the same on all lists that are alike replies to them. -/
theorem answer (a : α) (h : ∀ ts', Alike ts' ts → p ts' = .ok a ts') : RepliesTo Quoted ts p :=
  ⟨.answer a 0, trivial, h⟩

/-- A reader that complains in the same words on all lists that are alike replies to them, for a
complaint takes its place from the tokens. -/
theorem complaint {message : String} (hsaying : Saying Quoted message) (expected : List String)
    (suggestion : Option String)
    (h : ∀ ts', Alike ts' ts → p ts' = .error (unexpected message expected suggestion ts') ts') :
    RepliesTo Quoted ts p :=
  ⟨.complaint message expected suggestion 0, hsaying, h⟩

/-- A reader that goes on as another after some tokens. -/
theorem after {q : Parser α} (n : Nat) (h : ∀ ts', Alike ts' ts → p ts' = q (ts'.drop n))
    (hq : RepliesTo Quoted (ts.drop n) q) : RepliesTo Quoted ts p := by
  obtain ⟨r, htells, hr⟩ := hq
  refine ⟨r.after n, htells.after n, fun ts' hts => ?_⟩
  rw [h ts' hts, hr _ (hts.drop n), Reply.on_after]

/-- A reader that goes on as another after one token. -/
theorem cons {q : Parser α} {t : Token}
    (h : ∀ t' ts', t'.kind = t.kind → t'.value = t.value → p (t' :: ts') = q ts')
    (hq : RepliesTo Quoted ts q) : RepliesTo Quoted (t :: ts) p := by
  refine after 1 (fun ts' hts => ?_) hq
  obtain ⟨t', rest, rfl, hkind, hvalue, -⟩ := hts.exists_cons
  exact h t' rest hkind hvalue

/-- A reader replies as one does that cannot be told from it on lists that are alike. -/
theorem congr {q : Parser α} (h : ∀ ts', Alike ts' ts → p ts' = q ts')
    (hq : RepliesTo Quoted ts q) : RepliesTo Quoted ts p :=
  after 0 h hq

/-- A reader that answers as another, with the answer changed. -/
theorem map {q : Parser β} (f : β → α) (h : ∀ ts', Alike ts' ts → p ts' = (q ts').map f)
    (hq : RepliesTo Quoted ts q) : RepliesTo Quoted ts p := by
  obtain ⟨r, htells, hr⟩ := hq
  refine ⟨r.map f, htells.map f, fun ts' hts => ?_⟩
  rw [h ts' hts, hr ts' hts, Reply.on_map]

end RepliesTo

/-- **Readers that reply can follow each other.** The second is given the rest that the first
leaves, which is alike again. -/
theorem Replies.bind {p : Parser α} {q : α → Parser β} (hp : Replies Quoted p)
    (hq : ∀ a, Replies Quoted (q a)) : Replies Quoted (bind p q) := by
  intro ts hts
  obtain ⟨r, htells, hr⟩ := hp ts hts
  cases r with
  | answer a taken =>
    refine .after taken (fun ts' hts' => ?_) (hq a _ (hts.drop taken))
    exact bind_of_ok (hr ts' hts')
  | complaint message expected suggestion taken =>
    refine ⟨.complaint message expected suggestion taken, htells, fun ts' hts' => ?_⟩
    exact bind_of_error (hr ts' hts')

theorem replies_pure (a : α) : Replies Quoted (pure a) :=
  fun _ _ => .answer a fun _ _ => rfl

/-! ## Single tokens -/

/-- The complaint about a missing token. -/
theorem repliesTo_missing (kind : TokenKind) {ts : List Token} {p : Parser α}
    (h : ∀ ts', Alike ts' ts → p ts' = .error (missing kind ts') ts') : RepliesTo Quoted ts p := by
  refine .complaint (.missing kind (foundKind ts)) [kind.name] (suggestion? kind ts)
    fun ts' hts => (h ts' hts).trans ?_
  have hsuggestion : suggestion? kind ts' = suggestion? kind ts := by
    cases ts with
    | nil => rw [hts.eq_nil]
    | cons t ts =>
      obtain ⟨t', rest, rfl, hkind, -, -⟩ := hts.exists_cons
      rw [suggestion?, suggestion?, hkind]
  rw [missing, foundName_eq, hts.foundKind_eq, hsuggestion]

/-- A token of a kind, of which only the value matters for what follows. -/
theorem replies_expect {kind : TokenKind} {q : Token → Parser α}
    (hvalue : ∀ t t', t.value = t'.value → q t = q t') (hq : ∀ t, Replies Quoted (q t)) :
    Replies Quoted (bind (expect kind) q) := by
  intro ts hts
  cases ts with
  | nil =>
    refine repliesTo_missing kind fun ts' hts' => ?_
    rw [hts'.eq_nil]
    rfl
  | cons t ts =>
    by_cases ht : t.kind = kind
    · refine .cons (fun t' ts' hkind hval => ?_) (hq t ts hts.tail)
      rw [bind_of_ok (expect_eq_ok_iff.mpr ⟨hkind.trans ht, rfl⟩), hvalue t' t hval]
    · refine repliesTo_missing kind fun ts' hts' => ?_
      obtain ⟨t', rest, rfl, hkind, -, -⟩ := hts'.exists_cons
      exact bind_of_error (if_neg (hkind ▸ ht))

/-- The dot behind an object may be missing, and then the object is quoted. -/
theorem replies_memberDot {object : Token} (hobject : Quoted object) :
    Replies Quoted (memberDot object) := by
  intro ts _
  cases ts with
  | nil =>
    refine .complaint (.member hobject) [TokenKind.dot.name] none fun ts' hts' => ?_
    rw [hts'.eq_nil]
    rfl
  | cons t ts =>
    by_cases ht : t.kind = .dot
    · exact .cons (q := pure ()) (fun t' ts' hkind _ => if_pos (hkind.trans ht))
        (.answer () fun _ _ => rfl)
    · refine .complaint (.member hobject) [TokenKind.dot.name] none fun ts' hts' => ?_
      obtain ⟨t', rest, rfl, hkind, -, -⟩ := hts'.exists_cons
      exact if_neg (hkind ▸ ht)

/-! ## Expressions and arguments -/

/-- The complaint about a missing expression. -/
theorem repliesTo_missingExpression {ts : List Token} {p : Parser α}
    (h : ∀ ts', Alike ts' ts → p ts' = .error (missingExpression ts') ts') :
    RepliesTo Quoted ts p := by
  cases ts with
  | nil =>
    refine .complaint .nothing expressionStarts none fun ts' hts => (h ts' hts).trans ?_
    rw [hts.eq_nil]
    rfl
  | cons t ts =>
    refine .complaint (.expression t.kind) expressionStarts none fun ts' hts => (h ts' hts).trans ?_
    obtain ⟨t', rest, rfl, hkind, -, -⟩ := hts.exists_cons
    rw [missingExpression, hkind]

/-- The induction is on the tokens, with the arrays that are open left free: opening and closing an
array each take one token. -/
theorem repliesTo_expressionWithin_and_closing (ts : List Token) :
    (∀ opened, RepliesTo Quoted ts (expressionWithin opened)) ∧
      ∀ node opened, RepliesTo Quoted ts (closing node opened) := by
  induction ts with
  | nil =>
    refine ⟨fun opened => repliesTo_missingExpression fun ts' hts => ?_, fun node opened => ?_⟩
    · rw [hts.eq_nil]
      rfl
    · cases opened with
      | nil => exact .answer node fun ts' _ => by rw [closing]
      | cons elements outer =>
        refine repliesTo_missing .rightBracket fun ts' hts => ?_
        rw [hts.eq_nil]
        rfl
  | cons t ts ih =>
    obtain ⟨hinside, hclosing⟩ := ih
    refine ⟨fun opened => ?_, fun node opened => ?_⟩
    · cases hkind : t.kind with
      | string =>
        exact .cons (fun t' ts' hk hv => by simp only [expressionWithin, hk, hkind, hv])
          (hclosing ⟨.string, t.value, []⟩ opened)
      | number =>
        exact .cons (fun t' ts' hk hv => by simp only [expressionWithin, hk, hkind, hv])
          (hclosing ⟨.number, t.value, []⟩ opened)
      | identifier =>
        exact .cons (fun t' ts' hk hv => by simp only [expressionWithin, hk, hkind, hv])
          (hclosing ⟨.identifier, t.value, []⟩ opened)
      | leftBracket =>
        exact .cons (fun t' ts' hk hv => by simp only [expressionWithin, hk, hkind])
          (hinside ([] :: opened))
      | rightBracket =>
        -- an array may be closed at once, but not after a comma
        match opened with
        | [] :: outer =>
          exact .cons (fun t' ts' hk hv => by simp only [expressionWithin, hk, hkind])
            (hclosing ⟨.array, .null, []⟩ outer)
        | [] | (_ :: _) :: _ =>
          refine repliesTo_missingExpression fun ts' hts => ?_
          obtain ⟨t', rest, rfl, hk, -, -⟩ := hts.exists_cons
          simp only [expressionWithin, hk, hkind]
      | _ =>
        refine repliesTo_missingExpression fun ts' hts => ?_
        obtain ⟨t', rest, rfl, hk, -, -⟩ := hts.exists_cons
        simp only [expressionWithin, hk, hkind]
    · cases opened with
      | nil => exact .answer node fun ts' _ => by rw [closing]
      | cons elements outer =>
        by_cases hcomma : t.kind = .comma
        · exact .cons (fun t' ts' hk _ => by rw [closing, if_pos (hk.trans hcomma)]) (hinside _)
        · by_cases hclose : t.kind = .rightBracket
          · refine .cons (fun t' ts' hk _ => ?_)
              (hclosing ⟨.array, .null, (node :: elements).reverse⟩ outer)
            rw [closing, if_neg (hk ▸ hcomma), if_pos (hk.trans hclose)]
          · refine repliesTo_missing .rightBracket fun ts' hts => ?_
            obtain ⟨t', rest, rfl, hk, -, -⟩ := hts.exists_cons
            rw [closing, if_neg (hk ▸ hcomma), if_neg (hk ▸ hclose)]

/-- **The reader of expressions replies.** -/
theorem replies_expression : Replies Quoted expression :=
  fun ts _ => (repliesTo_expressionWithin_and_closing ts).1 []

theorem replies_array : Replies Quoted array :=
  replies_expect (fun _ _ _ => rfl) fun _ ts _ => (repliesTo_expressionWithin_and_closing ts).1 [[]]

/-- The induction is on the number of tokens: what is left after a comma is shorter. -/
theorem replies_argumentList : Replies Quoted argumentList := by
  intro ts
  induction hn : ts.length using Nat.strongRecOn generalizing ts with
  | ind n ih =>
    subst hn
    intro hts
    obtain ⟨r, htells, hr⟩ := replies_expression ts hts
    cases r with
    | complaint message expected suggestion taken =>
      refine ⟨.complaint message expected suggestion taken, htells, fun ts' hts' => ?_⟩
      exact argumentList_of_error (hr ts' hts')
    | answer node taken =>
      cases hcomma : nextIs .comma (ts.drop taken) with
      | false =>
        refine ⟨.answer [node] taken, trivial, fun ts' hts' => ?_⟩
        exact argumentList_of_last (hr ts' hts') ((nextIs_eq .comma (hts'.drop taken)).trans hcomma)
      | true =>
        match hdrop : ts.drop taken with
        | [] => rw [hdrop] at hcomma; cases hcomma
        | comma :: rest =>
          have hshorter : rest.length < ts.length := by
            have hlength := congrArg List.length hdrop
            simp only [List.length_drop, List.length_cons] at hlength
            omega
          have hrest : ts.drop (taken + 1) = rest := by rw [← List.drop_drop, hdrop]; rfl
          have hmore := ih rest.length hshorter rest rfl (hrest ▸ hts.drop (taken + 1))
          refine .after (taken + 1) (q := fun ts' => (argumentList ts').map (node :: ·))
            (fun ts' hts' => ?_) (.map (node :: ·) (fun _ _ => rfl) (hrest ▸ hmore))
          have hlike := hts'.drop taken
          rw [hdrop] at hlike
          obtain ⟨t', rest', hrest', hkind, -, -⟩ := hlike.exists_cons
          rw [hdrop] at hcomma
          have hread := hr ts' hts'
          rw [Reply.on, hrest'] at hread
          rw [argumentList_of_comma hread (hkind.trans (of_decide_eq_true hcomma)),
            ← List.drop_drop, hrest']
          rfl

theorem replies_arguments : Replies Quoted arguments := by
  intro ts hts
  cases hclose : nextIs .rightParen ts with
  | true =>
    exact .answer [] fun ts' hts' => if_pos ((nextIs_eq _ hts').trans hclose)
  | false =>
    refine .congr (fun ts' hts' => if_neg ?_) (replies_argumentList ts hts)
    rw [nextIs_eq _ hts', hclose]
    exact Bool.false_ne_true

/-- **Readers made of readers that reply.** -/
theorem composes_replies : Composes Quoted fun α => @Replies α Quoted where
  pure := replies_pure
  expect _ := replies_expect
  memberDot hobject hq := (replies_memberDot hobject).bind hq
  arguments hq :=
    replies_arguments.bind fun nodes => replies_expect (fun _ _ _ => rfl) fun _ => hq nodes

/-! ## Statements -/

/-- The complaint about a missing statement. -/
theorem repliesTo_missingStatement {ts : List Token} {p : Parser α}
    (h : ∀ ts', Alike ts' ts → p ts' = .error (missingStatement ts') ts') :
    RepliesTo Quoted ts p := by
  refine .complaint (.statement (foundKind ts)) statementStarts none
    fun ts' hts => (h ts' hts).trans ?_
  rw [missingStatement, foundName_eq, hts.foundKind_eq]

/-- **The reader of statements replies.** The cases are the kinds that a statement may start
with. -/
theorem replies_statement : Replies Quoted statement := by
  intro ts hts
  cases ts with
  | nil =>
    refine repliesTo_missingStatement fun ts' hts' => ?_
    rw [hts'.eq_nil]
    rfl
  | cons t ts =>
    by_cases hsemicolon : t.kind = .semicolon
    · exact .cons (q := pure none)
        (fun t' ts' hk _ => statement_of_semicolon ⟨t', hk.trans hsemicolon⟩ ts')
        (.answer none fun _ _ => rfl)
    by_cases hcore : t.kind = .core
    · refine .map some (fun ts' hts' => ?_) (composes_replies.coreCall (t :: ts) hts)
      obtain ⟨t', rest, rfl, hk, -, -⟩ := hts'.exists_cons
      exact statement_of_core ⟨t', hk.trans hcore⟩ rest
    by_cases hname : t.kind = .identifier
    · cases hparen : nextIs .leftParen ts with
      | true =>
        refine .after 1 (q := fun ts' => (directCall t ts').map some) (fun ts' hts' => ?_)
          (.map some (fun _ _ => rfl) (composes_replies.directCall t ts hts.tail))
        obtain ⟨t', rest, rfl, hk, hv, hrest⟩ := hts'.exists_cons
        refine (statement_of_direct ⟨t', hk.trans hname⟩
          ((nextIs_eq _ hrest).trans hparen)).trans ?_
        simp only [directCall, hv, List.drop_one, List.tail_cons]
      | false =>
        have hobject := composes_replies.objectCall (hts t List.mem_cons_self hname) ts hts.tail
        refine .after 1 (q := fun ts' => (objectCall t ts').map some) (fun ts' hts' => ?_)
          (.map some (fun _ _ => rfl) hobject)
        obtain ⟨t', rest, rfl, hk, hv, hrest⟩ := hts'.exists_cons
        refine (statement_of_object ⟨t', hk.trans hname⟩
          ((nextIs_eq _ hrest).trans hparen)).trans ?_
        -- the reader of the rest quotes the name, which is the same at another place
        have hcall : objectCall t' = objectCall t := by
          have hdot : memberDot t' = memberDot t := by
            funext ts
            simp only [memberDot, missingMember, Token.name, hv]
          simp only [objectCall, hdot, hv]
        rw [hcall]
        rfl
    · refine repliesTo_missingStatement fun ts' hts' => ?_
      obtain ⟨t', rest, rfl, hk, -, -⟩ := hts'.exists_cons
      exact statement_of_other (hk ▸ hsemicolon) (hk ▸ hcore) (hk ▸ hname)

/-- **The reader of statements tells nothing from places.** The induction is on the number of
tokens, and every statement takes some. -/
theorem replies_statements : Replies Quoted statements := by
  intro ts
  induction hn : ts.length using Nat.strongRecOn generalizing ts with
  | ind n ih =>
    subst hn
    intro hts
    cases hend : nextIs .endOfInput ts with
    | true => exact .answer [] fun ts' hts' => statements_of_end ((nextIs_eq _ hts').trans hend)
    | false =>
      obtain ⟨r, htells, hr⟩ := replies_statement ts hts
      cases r with
      | complaint message expected suggestion taken =>
        refine ⟨.complaint message expected suggestion taken, htells, fun ts' hts' => ?_⟩
        exact statements_of_error ((nextIs_eq _ hts').trans hend) (hr ts' hts')
      | answer node taken =>
        have hshorter := rest_length_lt_of_statement (hr ts rfl)
        have hmore := ih _ hshorter (ts.drop taken) rfl (hts.drop taken)
        exact .after taken (q := fun ts' => (statements ts').map (node.toList ++ ·))
          (fun ts' hts' => statements_of_statement (hr ts' hts')) (.map _ (fun _ _ => rfl) hmore)

theorem replies_program : Replies Quoted program :=
  replies_statements.bind fun _ => replies_pure _

end Parser

end CallScript
