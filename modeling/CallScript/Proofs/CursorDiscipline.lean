import CallScript.Proofs.Failures
import CallScript.Proofs.Replies

/-!
# A cursor goes forward

An embedding program may call the readers of tokens one by one, at any position and in any order.
Each of them leaves a part of the tokens it was given, whether it answers or fails, and if it fails
its error is about the first token it leaves (`Parser.Orderly`). For the readers of the grammar this
is part of what they reply, however deep inside arrays they stop.

For a cursor it means that no call moves it back or past the end, and that the error of a call that
fails describes the token at which the cursor then stands. Statements and expressions take a token
each time they are read. A program is read in rounds, one statement each, so there are at most as
many rounds as tokens; and since no statement holds an end of input, the last round leaves the
cursor at the first one.
-/

namespace CallScript

open Grammar

variable {α β : Type}

/-! ## Errors about a token -/

/-- **An error about a token**: it shows the kind of the token and carries its place. If there is no
token it shows an end of input and carries no place. -/
inductive ScriptError.Describes (e : ScriptError) : Option Token → Prop where
  | token {t : Token} {expected suggestion : Value}
      (hcause : e.cause = .unexpectedToken ⟨expected, .text t.kind.name, suggestion⟩)
      (hline : e.line = t.line) (hcolumn : e.column = t.column) : Describes e (some t)
  | nothing {expected suggestion : Value}
      (hcause : e.cause = .unexpectedToken ⟨expected, .text "EOF", suggestion⟩)
      (hline : e.line = .null) (hcolumn : e.column = .null) : Describes e none

namespace Parser

/-- The error of a reader that stops before a token describes that token. -/
theorem describes_unexpected (message : String) (expected : List String)
    (suggestion : Option String) (ts : List Token) :
    (unexpected message expected suggestion ts).Describes ts.head? := by
  cases ts with
  | nil => exact .nothing rfl rfl rfl
  | cons t ts => exact .token rfl rfl rfl

/-! ## Orderly readers -/

/-- An outcome that leaves a part of some tokens, and is about the first token it leaves if it is an
error. -/
def LeavesPart (ts : List Token) : Outcome α → Prop
  | .ok _ rest => rest <:+ ts
  | .error e rest => rest <:+ ts ∧ e.Describes rest.head?

/-- **An orderly reader** leaves a part of its tokens, and its errors are about what it leaves. -/
def Orderly (p : Parser α) : Prop := ∀ ts, LeavesPart ts (p ts)

/-- What an orderly reader leaves is the end of what it was given. -/
theorem Orderly.isSuffix {p : Parser α} (h : Orderly p) {ts rest : List Token} {a : α}
    (hread : p ts = .ok a rest) : rest <:+ ts := by
  have hleaves := h ts
  rwa [hread] at hleaves

/-- A reader leaves what its reply says, and complains about the first token of that. -/
theorem Replies.orderly {p : Parser α} (h : Replies (fun _ => True) p) : Orderly p := by
  intro ts
  obtain ⟨r, -, hr⟩ := h ts fun _ _ _ => trivial
  rw [hr ts rfl]
  cases r with
  | answer a taken => exact List.drop_suffix taken ts
  | complaint message expected suggestion taken =>
    exact ⟨List.drop_suffix taken ts, describes_unexpected _ _ _ _⟩

theorem orderly_advance : Orderly advance := by
  intro ts
  cases ts with
  | nil => exact ⟨List.suffix_refl _, describes_unexpected _ _ _ []⟩
  | cons t ts => exact List.suffix_cons t ts

theorem orderly_accept (kind : TokenKind) : Orderly (accept kind) := by
  intro ts
  cases ts with
  | nil => exact List.suffix_refl _
  | cons t ts =>
    simp only [accept]
    split
    · exact List.suffix_cons t ts
    · exact List.suffix_refl _

/-- A reader of one token is orderly. -/
theorem ReadsOne.orderly {kind : TokenKind} {p : Parser α} (h : ReadsOne kind p) : Orderly p := by
  intro ts
  cases hts : nextIs kind ts with
  | false =>
    obtain ⟨message, suggestion, herror, -⟩ := h.complains ts hts
    rw [herror]
    exact ⟨List.suffix_refl _, describes_unexpected _ _ _ ts⟩
  | true =>
    match ts with
    | t :: ts =>
      obtain ⟨a, hanswer⟩ := h.answers ⟨t, of_decide_eq_true hts⟩
      rw [hanswer ts]
      exact List.suffix_cons t ts

theorem orderly_expect (kind : TokenKind) : Orderly (expect kind) := (readsOne_expect kind).orderly

end Parser

namespace Cursor

variable {c : Cursor} {p : Parser α}

/-! ## Reading from a cursor -/

/-- The cursor at which some of the tokens are left. -/
def leaving (c : Cursor) (rest : List Token) : Cursor :=
  { c with pos := c.tokens.length - rest.length }

/-- A cursor that reads something stands behind it. -/
theorem read_of_ok {a : α} {rest : List Token} (h : p c.rest = .ok a rest) :
    c.read p = (.ok a, c.leaving rest) := by
  unfold read
  rw [h]
  rfl

/-- A cursor whose reading fails stands where the reader stopped. -/
theorem read_of_error {e : ScriptError} {rest : List Token} (h : p c.rest = .error e rest) :
    c.read p = (.error e, c.leaving rest) := by
  unfold read
  rw [h]
  rfl

/-- A cursor that leaves some tokens has these before it. -/
theorem rest_leaving {rest : List Token} (h : rest <:+ c.rest) : (c.leaving rest).rest = rest :=
  (List.suffix_iff_eq_drop.mp (h.trans (List.drop_suffix _ _))).symm

/-- A cursor that leaves what is before it does not move. -/
theorem leaving_rest (hc : c.pos ≤ c.tokens.length) : c.leaving c.rest = c := by
  have hpos : c.tokens.length - c.rest.length = c.pos := by
    rw [rest, List.length_drop]
    omega
  unfold leaving
  rw [hpos]

/-- Leaving the end of what is before it, a cursor does not go back. -/
theorem pos_le_leaving {rest : List Token} (hc : c.pos ≤ c.tokens.length) (h : rest <:+ c.rest) :
    c.pos ≤ (c.leaving rest).pos := by
  have hlength := h.length_le
  rw [Cursor.rest, List.length_drop] at hlength
  show c.pos ≤ c.tokens.length - rest.length
  omega

/-- The token at which a cursor stands, if any. -/
def current? (c : Cursor) : Option Token := c.tokens[c.pos]?

/-- The current token is the first of the rest. -/
theorem current?_eq_head? (c : Cursor) : c.current? = c.rest.head? := by
  rw [rest, List.head?_drop]
  rfl

/-- **A cursor that has gone forward** over the same tokens, and not past their end. -/
structure Forward (c c' : Cursor) : Prop where
  tokens_eq : c'.tokens = c.tokens
  pos_le : c.pos ≤ c'.pos
  pos_le_length : c'.pos ≤ c.tokens.length

theorem Forward.refl (hc : c.pos ≤ c.tokens.length) : c.Forward c := ⟨rfl, Nat.le_refl _, hc⟩

/-- Going forward twice is going forward. -/
theorem Forward.trans {c' c'' : Cursor} (h : c.Forward c') (h' : c'.Forward c'') :
    c.Forward c'' where
  tokens_eq := h'.tokens_eq.trans h.tokens_eq
  pos_le := h.pos_le.trans h'.pos_le
  pos_le_length := h.tokens_eq ▸ h'.pos_le_length

theorem Forward.within {c' : Cursor} (h : c.Forward c') : c'.pos ≤ c'.tokens.length :=
  h.tokens_eq.symm ▸ h.pos_le_length

/-- **A cursor that leaves the end of what is before it goes forward.** -/
theorem forward_leaving {rest : List Token} (hc : c.pos ≤ c.tokens.length) (h : rest <:+ c.rest) :
    c.Forward (c.leaving rest) :=
  ⟨rfl, pos_le_leaving hc h, Nat.sub_le _ _⟩

/-- **An orderly reader takes a cursor forward.** -/
theorem forward_read (hp : p.Orderly) (hc : c.pos ≤ c.tokens.length) :
    c.Forward (c.read p).2 := by
  have hleaves := hp c.rest
  cases hread : p c.rest with
  | ok a rest =>
    rw [hread] at hleaves
    rw [read_of_ok hread]
    exact forward_leaving hc hleaves
  | error e rest =>
    rw [hread] at hleaves
    rw [read_of_error hread]
    exact forward_leaving hc hleaves.1

/-- **The error of an orderly reader is about the token at which the cursor then stands.** -/
theorem describes_of_read (hp : p.Orderly) {e : ScriptError} (h : (c.read p).1 = .error e) :
    e.Describes (c.read p).2.current? := by
  have hleaves := hp c.rest
  cases hread : p c.rest with
  | ok a rest =>
    rw [read_of_ok hread] at h
    cases h
  | error e' rest =>
    rw [hread] at hleaves
    rw [read_of_error hread] at h ⊢
    obtain rfl := Except.error.inj h
    rw [current?_eq_head?, rest_leaving hleaves.1]
    exact hleaves.2

/-- What advances on success moves the cursor. -/
theorem pos_lt_of_read (hp : p.Advances) {a : α} (h : (c.read p).1 = .ok a) :
    c.pos < (c.read p).2.pos := by
  have hbelow := hp c.rest
  cases hread : p c.rest with
  | ok b rest =>
    have hlength : rest.length < c.rest.length := by rwa [hread] at hbelow
    rw [read_of_ok hread]
    rw [Cursor.rest, List.length_drop] at hlength
    show c.pos < c.tokens.length - rest.length
    omega
  | error e rest =>
    rw [read_of_error hread] at h
    cases h

/-! ## Calls -/

/-- A call of a reader, or of one of the looks at a token. -/
inductive Call where
  | peek (offset : Int)
  | current
  | check (kind : TokenKind)
  | advance
  | accept (kind : TokenKind)
  | expect (kind : TokenKind)
  | expression
  | array
  | arguments
  | callTail
  | coreCall
  | objectCall (object : Token)
  | directCall (method : Token)
  | statement
  | program

/-- What a call answers. -/
inductive Reply where
  | glance (ahead : Glance Token)
  | flag (b : Bool)
  | token (t : Token)
  | accepted (t : Option Token)
  | node (node : Node)
  | nodes (nodes : List Node)
  | statement (node : Option Node)

/-- Reads, and wraps the answer. -/
def answer (c : Cursor) (p : Parser α) (wrap : α → Reply) : Except ScriptError Reply × Cursor :=
  ((c.read p).1.map wrap, (c.read p).2)

/-- The answer to a call, or its error, and the cursor after it. -/
def perform (c : Cursor) : Call → Except ScriptError Reply × Cursor
  | .peek offset => (.ok (.glance (c.peek offset)), c)
  | .current => (.ok (.glance (c.peek 0)), c)
  | .check kind => (.ok (.flag (Parser.nextIs kind c.rest)), c)
  | .advance => c.answer Parser.advance .token
  | .accept kind => c.answer (Parser.accept kind) .accepted
  | .expect kind => c.answer (Parser.expect kind) .token
  | .expression => c.answer Parser.expression .node
  | .array => c.answer Parser.array .node
  | .arguments => c.answer Parser.arguments .nodes
  | .callTail => c.answer Parser.callTail .nodes
  | .coreCall => c.answer Parser.coreCall .node
  | .objectCall object => c.answer (Parser.objectCall object) .node
  | .directCall method => c.answer (Parser.directCall method) .node
  | .statement => c.answer Parser.statement .statement
  | .program => c.answer Parser.program .node

/-- The cursor after calls. -/
def run (c : Cursor) (calls : List Call) : Cursor :=
  calls.foldl (fun c call => (c.perform call).2) c

/-- **What a call can do**: it looks and does not move, or it is the call of an orderly reader. -/
theorem perform_cases (c : Cursor) (call : Call) :
    (∃ reply, c.perform call = (.ok reply, c)) ∨
      ∃ (α : Type) (p : Parser α) (wrap : α → Reply),
        p.Orderly ∧ c.perform call = c.answer p wrap := by
  cases call with
  | peek offset => exact .inl ⟨_, rfl⟩
  | current => exact .inl ⟨_, rfl⟩
  | check kind => exact .inl ⟨_, rfl⟩
  | advance => exact .inr ⟨_, _, _, Parser.orderly_advance, rfl⟩
  | accept kind => exact .inr ⟨_, _, _, Parser.orderly_accept kind, rfl⟩
  | expect kind => exact .inr ⟨_, _, _, Parser.orderly_expect kind, rfl⟩
  | expression => exact .inr ⟨_, _, _, Parser.replies_expression.orderly, rfl⟩
  | array => exact .inr ⟨_, _, _, Parser.replies_array.orderly, rfl⟩
  | arguments => exact .inr ⟨_, _, _, Parser.replies_arguments.orderly, rfl⟩
  | callTail => exact .inr ⟨_, _, _, Parser.composes_replies.callTail.orderly, rfl⟩
  | coreCall => exact .inr ⟨_, _, _, Parser.composes_replies.coreCall.orderly, rfl⟩
  | objectCall object =>
    exact .inr ⟨_, _, _, (Parser.composes_replies.objectCall trivial).orderly, rfl⟩
  | directCall method =>
    exact .inr ⟨_, _, _, (Parser.composes_replies.directCall method).orderly, rfl⟩
  | statement => exact .inr ⟨_, _, _, Parser.replies_statement.orderly, rfl⟩
  | program => exact .inr ⟨_, _, _, Parser.replies_program.orderly, rfl⟩

/-- **Every call moves a cursor forward or not at all**, also one that fails. -/
theorem forward_perform (hc : c.pos ≤ c.tokens.length) (call : Call) :
    c.Forward (c.perform call).2 := by
  obtain ⟨reply, h⟩ | ⟨α, p, wrap, hp, h⟩ := perform_cases c call
  · rw [h]
    exact .refl hc
  · rw [h]
    exact forward_read hp hc

/-- Calls one after the other move a cursor forward. -/
theorem forward_run (hc : c.pos ≤ c.tokens.length) (calls : List Call) :
    c.Forward (c.run calls) := by
  induction calls generalizing c with
  | nil => exact .refl hc
  | cons call calls ih =>
    have hstep := forward_perform hc call
    exact hstep.trans (ih hstep.within)

theorem answer_of_ok {a : α} {rest : List Token} (h : p c.rest = .ok a rest) (wrap : α → Reply) :
    c.answer p wrap = (.ok (wrap a), c.leaving rest) := by
  unfold answer
  rw [read_of_ok h]
  rfl

theorem answer_of_error {e : ScriptError} {rest : List Token} (h : p c.rest = .error e rest)
    (wrap : α → Reply) : c.answer p wrap = (.error e, c.leaving rest) := by
  unfold answer
  rw [read_of_error h]
  rfl

theorem read_of_answer_error {wrap : α → Reply} {e : ScriptError}
    (h : (c.answer p wrap).1 = .error e) : (c.read p).1 = .error e := by
  have hmap : (c.read p).1.map wrap = .error e := h
  cases hread : (c.read p).1 with
  | ok a => rw [hread] at hmap; cases hmap
  | error e' => rw [hread] at hmap; exact congrArg Except.error (Except.error.inj hmap)

theorem exists_read_of_answer_ok {wrap : α → Reply} {reply : Reply}
    (h : (c.answer p wrap).1 = .ok reply) : ∃ a, (c.read p).1 = .ok a := by
  have hmap : (c.read p).1.map wrap = .ok reply := h
  cases hread : (c.read p).1 with
  | ok a => exact ⟨a, rfl⟩
  | error e => rw [hread] at hmap; cases hmap

/-- **The error of a call describes the token that the cursor is left at.** -/
theorem describes_of_perform {call : Call} {e : ScriptError}
    (h : (c.perform call).1 = .error e) : e.Describes (c.perform call).2.current? := by
  obtain ⟨reply, hlook⟩ | ⟨α, p, wrap, hp, hcall⟩ := perform_cases c call
  · rw [hlook] at h
    cases h
  · rw [hcall] at h ⊢
    exact describes_of_read hp (read_of_answer_error h)

/-- **Statements and expressions take a token.** -/
theorem pos_lt_of_perform {call : Call} {reply : Reply}
    (hcall : call = .statement ∨ call = .expression) (h : (c.perform call).1 = .ok reply) :
    c.pos < (c.perform call).2.pos := by
  obtain rfl | rfl := hcall
  · obtain ⟨node, hread⟩ := exists_read_of_answer_ok h
    exact pos_lt_of_read Parser.advances_statement hread
  · obtain ⟨node, hread⟩ := exists_read_of_answer_ok h
    exact pos_lt_of_read Parser.advances_expression hread

/-! ## Programs -/

/-- **Rounds of reading a program**: as long as no end of input is ahead, a statement is read. -/
inductive Rounds : Cursor → List (Option Node) → Cursor → Prop where
  | none (c : Cursor) : Rounds c [] c
  | more {c next stop : Cursor} {node : Option Node} {nodes : List (Option Node)}
      (hcheck : c.perform (.check .endOfInput) = (.ok (.flag false), c))
      (hstatement : c.perform .statement = (.ok (.statement node), next))
      (hmore : Rounds next nodes stop) : Rounds c (node :: nodes) stop

/-- **What the rounds come to**: at an end of input there is a program, and elsewhere a statement
fails and the program with it. -/
inductive Concludes (c : Cursor) (nodes : List (Option Node)) (stop : Cursor) : Prop where
  | answered (hcheck : stop.perform (.check .endOfInput) = (.ok (.flag true), stop))
      (hprogram : c.perform .program
        = (.ok (.node ⟨.program, .null, nodes.flatMap Option.toList⟩), stop))
  | failed {e : ScriptError} {last : Cursor}
      (hcheck : stop.perform (.check .endOfInput) = (.ok (.flag false), stop))
      (hstatement : stop.perform .statement = (.error e, last))
      (hprogram : c.perform .program = (.error e, last))

/-- Each round takes a token, so there are no more rounds than tokens. -/
theorem Rounds.pos_add_length_le {nodes : List (Option Node)} {stop : Cursor}
    (h : c.Rounds nodes stop) : c.pos + nodes.length ≤ stop.pos := by
  induction h with
  | none c => exact Nat.le_refl _
  | @more c next stop node nodes hcheck hstatement _ ih =>
    have hlt : c.pos < next.pos := by
      have h := @pos_lt_of_perform c .statement (.statement node) (.inl rfl) (by rw [hstatement])
      rwa [hstatement] at h
    rw [List.length_cons]
    omega

/-- Rounds of statements move a cursor forward. -/
theorem Rounds.forward {nodes : List (Option Node)} {stop : Cursor} (h : c.Rounds nodes stop)
    (hc : c.pos ≤ c.tokens.length) : c.Forward stop := by
  induction h with
  | none c => exact .refl hc
  | @more c next stop node nodes hcheck hstatement _ ih =>
    have hstep := forward_perform hc .statement
    rw [hstatement] at hstep
    exact hstep.trans (ih hstep.within)

/-- Reading a program reads its statements. -/
theorem perform_program (c : Cursor) :
    c.perform .program = ((c.read Parser.statements).1.map fun nodes =>
      .node ⟨.program, .null, nodes⟩, (c.read Parser.statements).2) := by
  cases hread : Parser.statements c.rest with
  | ok nodes rest =>
    have hprogram : Parser.program c.rest = .ok ⟨.program, .null, nodes⟩ rest :=
      Parser.bind_of_ok hread
    rw [read_of_ok hread]
    exact answer_of_ok hprogram .node
  | error e rest =>
    have hprogram : Parser.program c.rest = .error e rest := Parser.bind_of_error hread
    rw [read_of_error hread]
    exact answer_of_error hprogram .node

/-- Reading statements goes on where the first of them ends. -/
theorem read_statements_of_statement {node : Option Node} {rest : List Token}
    (h : Parser.statement c.rest = .ok node rest) :
    c.read Parser.statements = (((c.leaving rest).read Parser.statements).1.map (node.toList ++ ·),
      ((c.leaving rest).read Parser.statements).2) := by
  have hstatements := Parser.statements_of_statement h
  have hrest := rest_leaving (Parser.replies_statement.orderly.isSuffix h)
  cases hmore : Parser.statements rest with
  | ok nodes rest' =>
    rw [hmore] at hstatements
    rw [← hrest] at hmore
    rw [read_of_ok hstatements, read_of_ok hmore]
    rfl
  | error e rest' =>
    rw [hmore] at hstatements
    rw [← hrest] at hmore
    rw [read_of_error hstatements, read_of_error hmore]
    rfl

theorem perform_check_of {b : Bool} (h : Parser.nextIs .endOfInput c.rest = b) :
    c.perform (.check .endOfInput) = (.ok (.flag b), c) := by
  rw [← h]
  rfl

/-- A statement before rounds that come to an end is one more round. -/
theorem Concludes.more {node : Option Node} {nodes : List (Option Node)} {rest : List Token}
    {stop : Cursor} (hread : Parser.statement c.rest = .ok node rest)
    (h : (c.leaving rest).Concludes nodes stop) : c.Concludes (node :: nodes) stop := by
  have hlater := perform_program (c.leaving rest)
  have hall := perform_program c
  rw [read_statements_of_statement hread] at hall
  generalize (c.leaving rest).read Parser.statements = outcome at hlater hall
  obtain ⟨answer, next⟩ := outcome
  cases h with
  | answered hcheck hprogram =>
    rw [hlater] at hprogram
    cases answer with
    | ok later =>
      cases hprogram
      exact .answered hcheck hall
    | error e => cases hprogram
  | failed hcheck hstatement hprogram =>
    rw [hlater] at hprogram
    cases answer with
    | ok later => cases hprogram
    | error e =>
      cases hprogram
      exact .failed hcheck hstatement hall

/-- **Reading a program is rounds that come to an end.** The induction is on the tokens that are
left. -/
theorem exists_rounds (hc : c.pos ≤ c.tokens.length) :
    ∃ nodes stop, c.Rounds nodes stop ∧ c.Concludes nodes stop := by
  induction hn : c.rest.length using Nat.strong_induction_on generalizing c with
  | h n ih =>
    cases hend : Parser.nextIs .endOfInput c.rest with
    | true =>
      refine ⟨[], c, .none c, .answered (perform_check_of hend) ?_⟩
      rw [perform_program, read_of_ok (Parser.statements_of_end hend), leaving_rest hc]
      rfl
    | false =>
      cases hread : Parser.statement c.rest with
      | error e rest =>
        have hfails := answer_of_error hread .statement
        refine ⟨[], c, .none c, .failed (perform_check_of hend) hfails ?_⟩
        rw [perform_program, read_of_error (Parser.statements_of_error hend hread)]
        rfl
      | ok node rest =>
        have hsuffix := Parser.replies_statement.orderly.isSuffix hread
        have hforward := forward_leaving hc hsuffix
        have hshorter : (c.leaving rest).rest.length < n := by
          rw [rest_leaving hsuffix, ← hn]
          exact Parser.rest_length_lt_of_statement hread
        obtain ⟨nodes, stop, hrounds, hconcludes⟩ := ih _ hshorter hforward.within rfl
        exact ⟨node :: nodes, stop, .more (perform_check_of hend) (answer_of_ok hread .statement)
          hrounds, hconcludes.more hread⟩

/-! ## The first end of input -/

/-- **The first end of input** at or after a position. -/
structure FirstEnd (tokens : List Token) (start k : Nat) : Prop where
  le : start ≤ k
  isEnd : ∃ t, tokens[k]? = some t ∧ t.kind = .endOfInput
  before : ∀ i t, start ≤ i → i < k → tokens[i]? = some t → t.kind ≠ .endOfInput

/-- **A program that is read ends at the first end of input.** No statement holds one. -/
theorem firstEnd_of_program (hc : c.pos ≤ c.tokens.length) {reply : Reply}
    (h : (c.perform .program).1 = .ok reply) :
    FirstEnd c.tokens c.pos (c.perform .program).2.pos := by
  rw [perform_program] at h ⊢
  cases hread : Parser.statements c.rest with
  | error e rest =>
    rw [read_of_error hread] at h
    cases h
  | ok nodes rest =>
    obtain ⟨hend, d, htokens, -⟩ := Parser.statements_eq_ok_iff.mp hread
    have hsuffix := Parser.replies_statements.orderly.isSuffix hread
    rw [read_of_ok hread]
    refine ⟨pos_le_leaving hc hsuffix, ?_, fun i t hstart hlt ht hkind => ?_⟩
    · match rest with
      | t :: rest =>
        have hcurrent := current?_eq_head? (c.leaving (t :: rest))
        rw [rest_leaving hsuffix] at hcurrent
        exact ⟨t, hcurrent, of_decide_eq_true hend⟩
    · -- a token on the way belongs to one of the statements
      have hlength := congrArg List.length htokens
      rw [Cursor.rest, List.length_drop, List.length_append] at hlength
      have hinside : i - c.pos < d.tokens.length := by
        have hlt' : i < c.tokens.length - rest.length := hlt
        omega
      have hmem : d.tokens[i - c.pos]? = some t := by
        rw [← List.getElem?_append_left hinside, ← htokens, Cursor.rest, List.getElem?_drop,
          Nat.add_sub_cancel' hstart, ht]
      have hother := d.not_isEnd t (List.mem_of_getElem? hmem)
      rw [isEnd, hkind] at hother
      cases hother

end Cursor

open Cursor in
/-- **A cursor goes forward, whatever it is called for.** Let any readers be called on a list of
tokens, in any order and each from where the last one stopped. The cursor stays on the list and no
call takes it back. A statement or an expression that is read takes at least one token. So a program
is read in rounds, of which there are at most as many as tokens are left; and when it is read, the
cursor stands at the first end of input from where it started. The error of a call that fails
describes the token at which the cursor then stands. -/
theorem cursor_goes_forward (tokens : List Token) (calls : List Call) (c : Cursor)
    (hc : (Cursor.mk tokens 0).run calls = c) :
    c.tokens = tokens ∧ c.pos ≤ tokens.length ∧
    (∀ call : Call, c.pos ≤ (c.perform call).2.pos ∧ (c.perform call).2.pos ≤ tokens.length) ∧
    (∀ (call : Call) (reply : Reply), call = .statement ∨ call = .expression →
      (c.perform call).1 = .ok reply → c.pos < (c.perform call).2.pos) ∧
    (∃ nodes stop, c.Rounds nodes stop ∧ c.Concludes nodes stop) ∧
    (∀ nodes stop, c.Rounds nodes stop → nodes.length ≤ tokens.length - c.pos) ∧
    (∀ reply : Reply, (c.perform .program).1 = .ok reply →
      FirstEnd tokens c.pos (c.perform .program).2.pos) ∧
    ∀ (call : Call) (e : ScriptError), (c.perform call).1 = .error e →
      e.Describes tokens[(c.perform call).2.pos]? := by
  have hforward : (Cursor.mk tokens 0).Forward c := by
    rw [← hc]
    exact forward_run (Nat.zero_le _) calls
  obtain rfl : c.tokens = tokens := hforward.tokens_eq
  have hwithin := hforward.within
  refine ⟨rfl, hwithin, fun call => ?_, fun call reply => pos_lt_of_perform,
    exists_rounds hwithin, fun nodes stop hrounds => ?_, fun reply => firstEnd_of_program hwithin,
    fun call e he => ?_⟩
  · have hstep := forward_perform hwithin call
    exact ⟨hstep.pos_le, hstep.pos_le_length⟩
  · have hlength := hrounds.pos_add_length_le
    have hstop := (hrounds.forward hwithin).pos_le_length
    omega
  · have hdescribes := describes_of_perform he
    unfold current? at hdescribes
    rwa [(forward_perform hwithin call).tokens_eq] at hdescribes

/-- The tokens of `[x,);`, an array in which an element is missing, and an end of input. -/
def brokenArray : List Token :=
  [⟨.leftBracket, .null, .int 1, .int 1⟩, ⟨.identifier, .text "x", .int 1, .int 2⟩,
    ⟨.comma, .null, .int 1, .int 3⟩, ⟨.rightParen, .null, .int 1, .int 4⟩,
    ⟨.semicolon, .null, .int 1, .int 5⟩, ⟨.endOfInput, .null, .int 1, .int 6⟩]

open Cursor in
/-- An expression fails inside the array, at the parenthesis. From the token behind it a statement
and a program are read. -/
theorem brokenArray_read_forward :
    (∃ e, ((Cursor.mk brokenArray 0).perform .expression).1 = .error e ∧
      e.Describes brokenArray[3]?) ∧
    ((Cursor.mk brokenArray 0).run [.expression, .advance]).pos = 4 ∧
    (∃ reply, ((Cursor.mk brokenArray 4).perform .statement).1 = .ok reply ∧
      4 < ((Cursor.mk brokenArray 4).perform .statement).2.pos) ∧
    ∃ reply, ((Cursor.mk brokenArray 4).perform .program).1 = .ok reply ∧
      FirstEnd brokenArray 4 ((Cursor.mk brokenArray 4).perform .program).2.pos := by
  have hstatements : Parser.statements (brokenArray.drop 4) = .ok [] (brokenArray.drop 5) := by
    rw [@Parser.statements_of_statement _ (brokenArray.drop 5) none rfl,
      Parser.statements_of_end rfl]
    rfl
  have hprogram : Parser.program (Cursor.mk brokenArray 4).rest
      = .ok ⟨.program, .null, []⟩ (brokenArray.drop 5) := Parser.bind_of_ok hstatements
  have hanswer : ((Cursor.mk brokenArray 4).perform .program).1
      = .ok (.node ⟨.program, .null, []⟩) := congrArg Prod.fst (answer_of_ok hprogram .node)
  obtain ⟨-, -, -, -, -, -, -, hdescribes⟩ := cursor_goes_forward brokenArray [] _ rfl
  obtain ⟨-, -, -, htakes, -, -, hfirst, -⟩ :=
    cursor_goes_forward brokenArray [.expression, .advance] ⟨brokenArray, 4⟩ rfl
  exact ⟨⟨_, rfl, hdescribes .expression _ rfl⟩, rfl,
    ⟨_, rfl, htakes .statement _ (.inl rfl) rfl⟩, _, hanswer, hfirst _ hanswer⟩

end CallScript
