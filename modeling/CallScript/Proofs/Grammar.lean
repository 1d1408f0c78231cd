import CallScript.Node.Parser
import Mathlib.Data.List.TakeWhile

/-!
# The grammar and its derivations

    Program    = { Statement } , EOF ;
    Statement  = ";"
               | "core" , "." , Identifier , "(" , Arguments , ")" , ";"
               | Identifier , "(" , Arguments , ")" , ";"
               | Identifier , "." , Identifier , "(" , Arguments , ")" , ";" ;
    Arguments  = [ Expression , { "," , Expression } ] ;
    Expression = String | Number | Identifier | Array ;
    Array      = "[" , [ Expression , { "," , Expression } ] , "]" ;

A derivation is a tree with one constructor per alternative of a rule, and its leaves are the tokens
themselves, each of the kind its rule asks for. So a derivation cannot be ill-formed, and it
answers two questions by recursion: which tokens it derives, in order, and which syntax tree it
stands for. Nothing here mentions the reader of tokens.

The grammar is unambiguous: a derivation is determined by the tokens it derives
(`Program.tokens_injective`). An expression even marks its own end, so that two expressions that
start at one place are one (`Expression.eq_of_append`); a list of items does so only together with
the token after it, which must not be a comma.
-/

namespace CallScript

/-- A token of a given kind. -/
abbrev TokenOf (kind : TokenKind) : Type := { t : Token // t.kind = kind }

namespace Grammar

/-! ## Derivations -/

mutual

/-- **A derivation of an expression.** -/
inductive Expression where
  | string (t : TokenOf .string)
  | number (t : TokenOf .number)
  | identifier (t : TokenOf .identifier)
  | array (opening : TokenOf .leftBracket) (elements : Items) (closing : TokenOf .rightBracket)

/-- A derivation of expressions with commas between them, of which there may be none. -/
inductive Items where
  | none
  | some (first : Expression) (more : More)

/-- A derivation of the expressions after the first, each with its comma. -/
inductive More where
  | done
  | next (comma : TokenOf .comma) (item : Expression) (more : More)

end

/-- A derivation of what follows the name of a method: the arguments and the semicolon. -/
structure Tail where
  opening : TokenOf .leftParen
  arguments : Items
  closing : TokenOf .rightParen
  semicolon : TokenOf .semicolon

/-- **A derivation of a statement.** -/
inductive Statement where
  | empty (semicolon : TokenOf .semicolon)
  | coreCall (core : TokenOf .core) (dot : TokenOf .dot) (method : TokenOf .identifier)
      (tail : Tail)
  | directCall (method : TokenOf .identifier) (tail : Tail)
  | objectCall (object : TokenOf .identifier) (dot : TokenOf .dot) (method : TokenOf .identifier)
      (tail : Tail)

/-- **A derivation of a program**, the end of input left out: any number of statements. -/
abbrev Program : Type := List Statement

/-! ## The tokens of a derivation -/

mutual

/-- The tokens of an expression. -/
def Expression.tokens : Expression → List Token
  | .string t => [t.val]
  | .number t => [t.val]
  | .identifier t => [t.val]
  | .array opening elements closing => opening.val :: (elements.tokens ++ [closing.val])

/-- The tokens of items. -/
def Items.tokens : Items → List Token
  | .none => []
  | .some first more => first.tokens ++ more.tokens

/-- The tokens of the items after the first. -/
def More.tokens : More → List Token
  | .done => []
  | .next comma item more => comma.val :: (item.tokens ++ more.tokens)

end

/-- The tokens of what follows the name of a method. -/
def Tail.tokens (tail : Tail) : List Token :=
  tail.opening.val :: (tail.arguments.tokens ++ [tail.closing.val, tail.semicolon.val])

/-- The tokens of a statement. -/
def Statement.tokens : Statement → List Token
  | .empty semicolon => [semicolon.val]
  | .coreCall core dot method tail => core.val :: dot.val :: method.val :: tail.tokens
  | .directCall method tail => method.val :: tail.tokens
  | .objectCall object dot method tail => object.val :: dot.val :: method.val :: tail.tokens

/-- The tokens of a program. -/
def Program.tokens (d : Program) : List Token := d.flatMap Statement.tokens

@[simp] theorem Program.tokens_nil : Program.tokens [] = [] := rfl

@[simp] theorem Program.tokens_cons (s : Statement) (d : Program) :
    Program.tokens (s :: d) = s.tokens ++ d.tokens := List.flatMap_cons

/-! ## The tree of a derivation -/

mutual

/-- The tree of an expression. -/
def Expression.node : Expression → Node
  | .string t => ⟨.string, t.val.value, []⟩
  | .number t => ⟨.number, t.val.value, []⟩
  | .identifier t => ⟨.identifier, t.val.value, []⟩
  | .array _ elements _ => ⟨.array, .null, elements.nodes⟩

/-- The trees of items. -/
def Items.nodes : Items → List Node
  | .none => []
  | .some first more => first.node :: more.nodes

/-- The trees of the items after the first. -/
def More.nodes : More → List Node
  | .done => []
  | .next _ item more => item.node :: more.nodes

end

/-- The tree of a statement; the empty statement has none. -/
def Statement.node? : Statement → Option Node
  | .empty _ => none
  | .coreCall core _ method tail =>
    some ⟨.call, .null,
      ⟨.core, core.val.value, []⟩ :: ⟨.method, method.val.value, []⟩ :: tail.arguments.nodes⟩
  | .directCall method tail =>
    some ⟨.call, .null, ⟨.method, method.val.value, []⟩ :: tail.arguments.nodes⟩
  | .objectCall object _ method tail =>
    some ⟨.call, .null,
      ⟨.identifier, object.val.value, []⟩ :: ⟨.method, method.val.value, []⟩
        :: tail.arguments.nodes⟩

/-- The trees of the statements of a program, the empty ones dropped. -/
def Program.nodes (d : Program) : List Node := d.filterMap Statement.node?

@[simp] theorem Program.nodes_nil : Program.nodes [] = [] := rfl

@[simp] theorem Program.nodes_cons (s : Statement) (d : Program) :
    Program.nodes (s :: d) = s.node?.toList ++ d.nodes := by
  cases h : s.node? <;> simp [Program.nodes, h]

/-- **The tree of a program.** -/
def Program.node (d : Program) : Node := ⟨.program, .null, d.nodes⟩

/-! ## Lists of tokens that the grammar accepts -/

/-- Whether a token marks the end of input. -/
def isEnd (t : Token) : Bool := t.kind = .endOfInput

/-- The tokens before the first end of input. -/
def beforeEnd (ts : List Token) : List Token := ts.takeWhile (!isEnd ·)

/-- **A program derives a list of tokens**: there is an end of input, and the program derives
exactly the tokens before the first one. -/
def Program.Derives (d : Program) (ts : List Token) : Prop :=
  (∃ t ∈ ts, isEnd t = true) ∧ d.tokens = beforeEnd ts

/-- **The grammar accepts a list of tokens.** -/
def Accepts (ts : List Token) : Prop := ∃ d : Program, d.Derives ts

/-! ## A derivation is determined by its tokens -/

/-- The kinds of tokens that an expression may start with. -/
def expressionKinds : List TokenKind := [.string, .number, .identifier, .leftBracket]

/-- An expression starts with a token of one of its kinds. -/
theorem Expression.exists_first (e : Expression) :
    ∃ t ts, e.tokens = t :: ts ∧ t.kind ∈ expressionKinds := by
  cases e with
  | string t => exact ⟨t, [], by rw [tokens], by simp [t.property, expressionKinds]⟩
  | number t => exact ⟨t, [], by rw [tokens], by simp [t.property, expressionKinds]⟩
  | identifier t => exact ⟨t, [], by rw [tokens], by simp [t.property, expressionKinds]⟩
  | array opening elements closing =>
    exact ⟨opening, _, by rw [tokens], by simp [opening.property, expressionKinds]⟩

/-- A token has one kind only. -/
theorem val_ne_of_kind_ne {k k' : TokenKind} (hk : k ≠ k') (t : TokenOf k) (t' : TokenOf k') :
    t.val ≠ t'.val := by
  intro h
  exact hk (t.property.symm.trans ((congrArg Token.kind h).trans t'.property))

/-- Items that are followed by a closing token start with no such token. -/
theorem Expression.tokens_append_ne_cons (e : Expression) {closer : TokenKind}
    (hcloser : closer ∉ expressionKinds) (c : TokenOf closer) (r r' : List Token) :
    e.tokens ++ r ≠ c.val :: r' := by
  obtain ⟨t, ts, hts, ht⟩ := e.exists_first
  intro h
  rw [hts, List.cons_append] at h
  rw [(List.cons.inj h).1, c.property] at ht
  exact hcloser ht

mutual

/-- **An expression marks its own end**: two expressions that start at one place are one. -/
theorem Expression.eq_of_append {r r' : List Token} :
    ∀ e e' : Expression, e.tokens ++ r = e'.tokens ++ r' → e = e' ∧ r = r'
  | .string t, e', h => by
    cases e' with
    | string t' =>
      obtain ⟨ht, hr⟩ := List.cons.inj h
      exact ⟨by rw [Subtype.ext ht], hr⟩
    | _ t' => exact absurd (List.cons.inj h).1 (val_ne_of_kind_ne (by decide) t t')
  | .number t, e', h => by
    cases e' with
    | number t' =>
      obtain ⟨ht, hr⟩ := List.cons.inj h
      exact ⟨by rw [Subtype.ext ht], hr⟩
    | _ t' => exact absurd (List.cons.inj h).1 (val_ne_of_kind_ne (by decide) t t')
  | .identifier t, e', h => by
    cases e' with
    | identifier t' =>
      obtain ⟨ht, hr⟩ := List.cons.inj h
      exact ⟨by rw [Subtype.ext ht], hr⟩
    | _ t' => exact absurd (List.cons.inj h).1 (val_ne_of_kind_ne (by decide) t t')
  | .array opening elements closing, e', h => by
    cases e' with
    | array opening' elements' closing' =>
      simp only [Expression.tokens, List.cons_append, List.append_assoc, List.nil_append] at h
      obtain ⟨hopening, hrest⟩ := List.cons.inj h
      obtain ⟨rfl, hclosing, hr⟩ :=
        Items.eq_of_append (by decide) (by decide) closing closing' elements elements' hrest
      exact ⟨by rw [Subtype.ext hopening, hclosing], hr⟩
    | _ t' => exact absurd (List.cons.inj h).1 (val_ne_of_kind_ne (by decide) opening t')

/-- Items that start at one place and are followed by the same kind of closing token are the same
items. -/
theorem Items.eq_of_append {r r' : List Token} {closer : TokenKind} (hcomma : closer ≠ .comma)
    (hcloser : closer ∉ expressionKinds) (c c' : TokenOf closer) :
    ∀ xs xs' : Items, xs.tokens ++ c.val :: r = xs'.tokens ++ c'.val :: r' →
      xs = xs' ∧ c = c' ∧ r = r'
  | .none, .none, h => by
    obtain ⟨hc, hr⟩ := List.cons.inj h
    exact ⟨rfl, Subtype.ext hc, hr⟩
  | .none, .some first more, h => by
    simp only [Items.tokens, List.nil_append, List.append_assoc] at h
    exact absurd h.symm (first.tokens_append_ne_cons hcloser c _ _)
  | .some first more, .none, h => by
    simp only [Items.tokens, List.nil_append, List.append_assoc] at h
    exact absurd h (first.tokens_append_ne_cons hcloser c' _ _)
  | .some first more, .some first' more', h => by
    simp only [Items.tokens, List.append_assoc] at h
    obtain ⟨rfl, hmore⟩ := Expression.eq_of_append first first' h
    obtain ⟨rfl, hc, hr⟩ := More.eq_of_append hcomma c c' more more' hmore
    exact ⟨rfl, hc, hr⟩

/-- The items after the first are determined by their tokens as well: a comma announces one more
and anything else ends them. -/
theorem More.eq_of_append {r r' : List Token} {closer : TokenKind} (hcomma : closer ≠ .comma)
    (c c' : TokenOf closer) :
    ∀ m m' : More, m.tokens ++ c.val :: r = m'.tokens ++ c'.val :: r' →
      m = m' ∧ c = c' ∧ r = r'
  | .done, .done, h => by
    obtain ⟨hc, hr⟩ := List.cons.inj h
    exact ⟨rfl, Subtype.ext hc, hr⟩
  | .done, .next comma _ _, h => absurd (List.cons.inj h).1 (val_ne_of_kind_ne hcomma c comma)
  | .next comma _ _, .done, h =>
    absurd (List.cons.inj h).1 (val_ne_of_kind_ne hcomma.symm comma c')
  | .next comma item more, .next comma' item' more', h => by
    simp only [More.tokens, List.cons_append, List.append_assoc] at h
    obtain ⟨hcommas, hitem⟩ := List.cons.inj h
    obtain ⟨rfl, hmore⟩ := Expression.eq_of_append item item' hitem
    obtain ⟨rfl, hc, hr⟩ := More.eq_of_append hcomma c c' more more' hmore
    exact ⟨by rw [Subtype.ext hcommas], hc, hr⟩

end

/-- What follows the name of a method marks its own end. -/
theorem Tail.eq_of_append {r r' : List Token} (a b : Tail) (h : a.tokens ++ r = b.tokens ++ r') :
    a = b ∧ r = r' := by
  obtain ⟨opening, arguments, closing, semicolon⟩ := a
  obtain ⟨opening', arguments', closing', semicolon'⟩ := b
  simp only [Tail.tokens, List.cons_append, List.append_assoc, List.nil_append] at h
  obtain ⟨hopening, hrest⟩ := List.cons.inj h
  obtain ⟨rfl, rfl, hend⟩ :=
    Items.eq_of_append (by decide) (by decide) closing closing' arguments arguments' hrest
  obtain ⟨hsemicolon, hr⟩ := List.cons.inj hend
  rw [Subtype.ext hopening, Subtype.ext hsemicolon]
  exact ⟨rfl, hr⟩

/-- **A statement marks its own end.** After a leading identifier one more token tells a direct
call from a call on an object. -/
theorem Statement.eq_of_append {r r' : List Token} (s s' : Statement)
    (h : s.tokens ++ r = s'.tokens ++ r') : s = s' ∧ r = r' := by
  cases s with
  | empty semicolon =>
    cases s' with
    | empty semicolon' =>
      obtain ⟨ht, hr⟩ := List.cons.inj h
      exact ⟨by rw [Subtype.ext ht], hr⟩
    | _ t' => exact absurd (List.cons.inj h).1 (val_ne_of_kind_ne (by decide) semicolon t')
  | coreCall core dot method tail =>
    cases s' with
    | coreCall core' dot' method' tail' =>
      simp only [Statement.tokens, List.cons_append, List.cons.injEq] at h
      obtain ⟨hcore, hdot, hmethod, htail⟩ := h
      obtain ⟨rfl, hr⟩ := tail.eq_of_append tail' htail
      exact ⟨by rw [Subtype.ext hcore, Subtype.ext hdot, Subtype.ext hmethod], hr⟩
    | _ t' => exact absurd (List.cons.inj h).1 (val_ne_of_kind_ne (by decide) core t')
  | directCall method tail =>
    cases s' with
    | directCall method' tail' =>
      obtain ⟨hmethod, htail⟩ := List.cons.inj h
      obtain ⟨rfl, hr⟩ := tail.eq_of_append tail' htail
      exact ⟨by rw [Subtype.ext hmethod], hr⟩
    | objectCall object' dot' method' tail' =>
      obtain ⟨-, htail⟩ := List.cons.inj h
      exact absurd (List.cons.inj htail).1 (val_ne_of_kind_ne (by decide) tail.opening dot')
    | _ t' => exact absurd (List.cons.inj h).1 (val_ne_of_kind_ne (by decide) method t')
  | objectCall object dot method tail =>
    cases s' with
    | objectCall object' dot' method' tail' =>
      simp only [Statement.tokens, List.cons_append, List.cons.injEq] at h
      obtain ⟨hobject, hdot, hmethod, htail⟩ := h
      obtain ⟨rfl, hr⟩ := tail.eq_of_append tail' htail
      exact ⟨by rw [Subtype.ext hobject, Subtype.ext hdot, Subtype.ext hmethod], hr⟩
    | directCall method' tail' =>
      obtain ⟨-, htail⟩ := List.cons.inj h
      exact absurd (List.cons.inj htail).1 (val_ne_of_kind_ne (by decide) dot tail'.opening)
    | _ t' => exact absurd (List.cons.inj h).1 (val_ne_of_kind_ne (by decide) object t')

theorem Statement.tokens_ne_nil (s : Statement) : s.tokens ≠ [] := by
  cases s <;> exact List.cons_ne_nil _ _

/-- **The grammar is unambiguous**: a program is determined by its tokens. -/
theorem Program.tokens_injective : ∀ d d' : Program, d.tokens = d'.tokens → d = d'
  | [], [], _ => rfl
  | [], s' :: d', h => by
    rw [Program.tokens_nil, Program.tokens_cons] at h
    exact absurd (List.append_eq_nil_iff.mp h.symm).1 s'.tokens_ne_nil
  | s :: d, [], h => by
    rw [Program.tokens_nil, Program.tokens_cons] at h
    exact absurd (List.append_eq_nil_iff.mp h).1 s.tokens_ne_nil
  | s :: d, s' :: d', h => by
    rw [Program.tokens_cons, Program.tokens_cons] at h
    obtain ⟨rfl, hd⟩ := s.eq_of_append s' h
    rw [Program.tokens_injective d d' hd]

/-! ## No derivation reaches past the end of input -/

/-- A token of a kind other than the end of input is not the end of input. -/
theorem isEnd_val {kind : TokenKind} (hkind : kind ≠ .endOfInput) (t : TokenOf kind) :
    isEnd t.val = false := by
  rw [isEnd, t.property]
  exact decide_eq_false hkind

mutual

theorem Expression.not_isEnd : ∀ (e : Expression), ∀ t ∈ e.tokens, isEnd t = false
  | .string t => by simpa [Expression.tokens] using isEnd_val (by decide) t
  | .number t => by simpa [Expression.tokens] using isEnd_val (by decide) t
  | .identifier t => by simpa [Expression.tokens] using isEnd_val (by decide) t
  | .array opening elements closing => by
    intro t ht
    simp only [Expression.tokens, List.mem_cons, List.mem_append, List.not_mem_nil, or_false] at ht
    obtain rfl | ht | rfl := ht
    · exact isEnd_val (by decide) opening
    · exact Items.not_isEnd elements t ht
    · exact isEnd_val (by decide) closing

theorem Items.not_isEnd : ∀ (xs : Items), ∀ t ∈ xs.tokens, isEnd t = false
  | .none => by simp [Items.tokens]
  | .some first more => by
    intro t ht
    rw [Items.tokens, List.mem_append] at ht
    obtain ht | ht := ht
    · exact Expression.not_isEnd first t ht
    · exact More.not_isEnd more t ht

theorem More.not_isEnd : ∀ (m : More), ∀ t ∈ m.tokens, isEnd t = false
  | .done => by simp [More.tokens]
  | .next comma item more => by
    intro t ht
    rw [More.tokens, List.mem_cons, List.mem_append] at ht
    obtain rfl | ht | ht := ht
    · exact isEnd_val (by decide) comma
    · exact Expression.not_isEnd item t ht
    · exact More.not_isEnd more t ht

end

theorem Tail.not_isEnd (tail : Tail) : ∀ t ∈ tail.tokens, isEnd t = false := by
  intro t ht
  simp only [Tail.tokens, List.mem_cons, List.mem_append, List.not_mem_nil, or_false] at ht
  obtain rfl | ht | rfl | rfl := ht
  · exact isEnd_val (by decide) tail.opening
  · exact tail.arguments.not_isEnd t ht
  · exact isEnd_val (by decide) tail.closing
  · exact isEnd_val (by decide) tail.semicolon

theorem Statement.not_isEnd (s : Statement) : ∀ t ∈ s.tokens, isEnd t = false := by
  intro t ht
  cases s with
  | empty semicolon =>
    obtain rfl := List.mem_singleton.mp ht
    exact isEnd_val (by decide) semicolon
  | coreCall core dot method tail =>
    simp only [Statement.tokens, List.mem_cons] at ht
    obtain rfl | rfl | rfl | ht := ht
    · exact isEnd_val (by decide) core
    · exact isEnd_val (by decide) dot
    · exact isEnd_val (by decide) method
    · exact tail.not_isEnd t ht
  | directCall method tail =>
    simp only [Statement.tokens, List.mem_cons] at ht
    obtain rfl | ht := ht
    · exact isEnd_val (by decide) method
    · exact tail.not_isEnd t ht
  | objectCall object dot method tail =>
    simp only [Statement.tokens, List.mem_cons] at ht
    obtain rfl | rfl | rfl | ht := ht
    · exact isEnd_val (by decide) object
    · exact isEnd_val (by decide) dot
    · exact isEnd_val (by decide) method
    · exact tail.not_isEnd t ht

/-- A program derives no end of input. -/
theorem Program.not_isEnd (d : Program) : ∀ t ∈ d.tokens, isEnd t = false := by
  intro t ht
  obtain ⟨s, -, hs⟩ := List.mem_flatMap.mp ht
  exact s.not_isEnd t hs

/-- **What a program derives**, spelled out: its tokens, an end of input, and anything after it. -/
theorem Program.derives_iff (d : Program) (ts : List Token) :
    d.Derives ts ↔ ∃ (stop : TokenOf .endOfInput) (ignored : List Token),
      ts = d.tokens ++ stop.val :: ignored := by
  constructor
  · rintro ⟨⟨stop, hmem, hstop⟩, htokens⟩
    have hsplit : beforeEnd ts ++ ts.dropWhile (!isEnd ·) = ts := List.takeWhile_append_dropWhile
    cases hdrop : ts.dropWhile (!isEnd ·) with
    | nil =>
      have hall := List.dropWhile_eq_nil_iff.mp hdrop stop hmem
      simp [hstop] at hall
    | cons t ignored =>
      have ht : isEnd t = true := by
        have := List.head?_dropWhile_not (!isEnd ·) ts
        simpa [hdrop] using this
      refine ⟨⟨t, of_decide_eq_true ht⟩, ignored, ?_⟩
      rw [htokens, ← hdrop, hsplit]
  · rintro ⟨stop, ignored, rfl⟩
    have hstop : isEnd stop.val = true := decide_eq_true stop.property
    refine ⟨⟨stop, by simp, hstop⟩, ?_⟩
    rw [beforeEnd, List.takeWhile_append_of_pos (fun t ht => by simp [d.not_isEnd t ht]),
      List.takeWhile_cons_of_neg (by simp [hstop]), List.append_nil]

end Grammar

end CallScript
