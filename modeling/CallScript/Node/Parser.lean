import CallScript.Lookahead
import CallScript.Node.Basic
import CallScript.ScriptError
import CallScript.Token.Basic

/-!
# From tokens to trees

The grammar, where braces stand for repetition and brackets for an option:

    Program    = { Statement } , EOF ;
    Statement  = ";"
               | "core" , "." , Identifier , "(" , Arguments , ")" , ";"
               | Identifier , "(" , Arguments , ")" , ";"
               | Identifier , "." , Identifier , "(" , Arguments , ")" , ";" ;
    Arguments  = [ Expression , { "," , Expression } ] ;
    Expression = String | Number | Identifier | Array ;
    Array      = "[" , [ Expression , { "," , Expression } ] , "]" ;

One token decides every choice, so that a reader never goes back. A reader takes the tokens that
are left and answers with a value or an error, and in either case with the tokens left after it.

Arrays nest. Instead of calling itself, the reader of expressions keeps the arrays that are still
open as a list of the elements read so far; every step consumes a token, and the recursion is on
the tokens.
-/

namespace CallScript

/-- What a reader of tokens answers, and the tokens it leaves. -/
inductive Outcome (α : Type) where
  | ok (value : α) (rest : List Token)
  | error (e : ScriptError) (rest : List Token)

/-- A reader of tokens. -/
def Parser (α : Type) : Type := List Token → Outcome α

namespace Parser

/-- Answers without reading anything. -/
def pure {α : Type} (a : α) : Parser α := fun ts => .ok a ts

/-- One reader after another. -/
def bind {α β : Type} (p : Parser α) (q : α → Parser β) : Parser β := fun ts =>
  match p ts with
  | .ok a rest => q a rest
  | .error e rest => .error e rest

instance : Monad Parser where
  pure := pure
  bind := bind

/-- Readers one after the other can be grouped either way. -/
theorem bind_assoc {α β γ : Type} (p : Parser α) (q : α → Parser β) (r : β → Parser γ) :
    bind (bind p q) r = bind p fun a => bind (q a) r := by
  funext ts
  unfold bind
  cases p ts <;> rfl

/-! ## Errors -/

/-- The name of the token a reader stands at; the end of the tokens counts as end of input. -/
def foundName : List Token → String
  | [] => TokenKind.endOfInput.name
  | t :: _ => t.kind.name

/-- The error of a reader that cannot go on with the tokens left. -/
def unexpected (message : String) (expected : List String) (suggestion : Option String)
    (ts : List Token) : ScriptError where
  cause := .unexpectedToken
    { expected := .texts expected
      found := .text (foundName ts)
      suggestion := (suggestion.map Value.text).getD .null }
  message := .text message
  line := (ts.head?.map (·.line)).getD .null
  column := (ts.head?.map (·.column)).getD .null

/-- A hint on how to mend a missing token. -/
def suggestion? (wanted : TokenKind) : List Token → Option String
  | [] => none
  | t :: _ =>
    if wanted = .semicolon then some "Terminate each call with ';'"
    else if wanted = .leftParen && t.kind = .dot then
      some "Chained member access is not supported; call a method directly"
    else none

/-- The error of a missing token. -/
def missing (wanted : TokenKind) (ts : List Token) : ScriptError :=
  unexpected ("Expected " ++ wanted.name ++ " but found " ++ foundName ts) [wanted.name]
    (suggestion? wanted ts) ts

/-- The tokens an expression may start with. -/
def expressionStarts : List String :=
  [TokenKind.string.name, TokenKind.number.name, TokenKind.identifier.name,
    TokenKind.leftBracket.name]

/-- The error of a missing expression. -/
def missingExpression : List Token → ScriptError
  | [] => unexpected "Unexpected end of input" expressionStarts none []
  | t :: ts =>
    unexpected ("Cannot parse expression starting with " ++ t.kind.name) expressionStarts none
      (t :: ts)

/-! ## Single tokens -/

/-- Whether the next token is of a kind. -/
def nextIs (kind : TokenKind) : List Token → Bool
  | [] => false
  | t :: _ => t.kind = kind

/-- Reads any token. -/
def advance : Parser Token
  | [] => .error (unexpected "Unexpected end of input" [] none []) []
  | t :: ts => .ok t ts

/-- Reads a token of a kind if it is next. -/
def accept (kind : TokenKind) : Parser (Option Token)
  | [] => .ok none []
  | t :: ts => if t.kind = kind then .ok (some t) ts else .ok none (t :: ts)

/-- Reads a token of a kind. -/
def expect (kind : TokenKind) : Parser Token
  | [] => .error (missing kind []) []
  | t :: ts => if t.kind = kind then .ok t ts else .error (missing kind (t :: ts)) (t :: ts)

/-! ## Expressions -/

mutual

/-- Reads an expression inside the arrays that are open, innermost first, each given by the
elements read so far, last first. -/
def expressionWithin (opened : List (List Node)) : List Token → Outcome Node
  | [] => .error (missingExpression []) []
  | t :: ts =>
    match t.kind, opened with
    | .string, _ => closing ⟨.string, t.value, []⟩ opened ts
    | .number, _ => closing ⟨.number, t.value, []⟩ opened ts
    | .identifier, _ => closing ⟨.identifier, t.value, []⟩ opened ts
    | .leftBracket, _ => expressionWithin ([] :: opened) ts
    | .rightBracket, [] :: outer => closing ⟨.array, .null, []⟩ outer ts
    | _, _ => .error (missingExpression (t :: ts)) (t :: ts)

/-- Goes on after an expression: outside all arrays it is the answer, inside one it is an element,
and a comma or the closing bracket must follow. -/
def closing (node : Node) : List (List Node) → List Token → Outcome Node
  | [], ts => .ok node ts
  | _ :: _, [] => .error (missing .rightBracket []) []
  | elements :: outer, t :: ts =>
    if t.kind = .comma then expressionWithin ((node :: elements) :: outer) ts
    else if t.kind = .rightBracket then
      closing ⟨.array, .null, (node :: elements).reverse⟩ outer ts
    else .error (missing .rightBracket (t :: ts)) (t :: ts)

end

/-- Reads an expression. -/
def expression : Parser Node := expressionWithin []

/-- Reads an array. -/
def array : Parser Node := do
  let _ ← expect .leftBracket
  expressionWithin [[]]

/-! ## Progress

A reader that answers leaves no more tokens than it was given, and the readers of expressions and
statements leave fewer. -/

/-- Whether an outcome, if it is an answer, leaves fewer than `n` tokens. -/
def Below {α : Type} (n : Nat) : Outcome α → Prop
  | .ok _ rest => rest.length < n
  | .error _ _ => True

/-- A reader that consumes something whenever it answers. -/
def Advances {α : Type} (p : Parser α) : Prop :=
  ∀ ts, Below ts.length (p ts)

/-- A reader that never leaves more tokens than it was given. -/
def Keeps {α : Type} (p : Parser α) : Prop :=
  ∀ ts, Below (ts.length + 1) (p ts)

theorem Below.mono {α : Type} {m n : Nat} {o : Outcome α} (h : Below m o) (hmn : m ≤ n) :
    Below n o := by
  cases o with
  | ok a rest => exact Nat.lt_of_lt_of_le h hmn
  | error e rest => trivial

theorem Advances.keeps {α : Type} {p : Parser α} (h : Advances p) : Keeps p :=
  fun ts => (h ts).mono (Nat.le_succ _)

theorem Keeps.pure {α : Type} (a : α) : Keeps (pure a) :=
  fun _ => Nat.lt_succ_self _

/-- **A reader that advances still does with others behind it** that do not go back. -/
theorem Advances.bind {α β : Type} {p : Parser α} {q : α → Parser β} (hp : Advances p)
    (hq : ∀ a, Keeps (q a)) : Advances (bind p q) := by
  intro ts
  have h := hp ts
  unfold Parser.bind
  split
  · next a rest heq =>
    rw [heq] at h
    exact (hq a rest).mono h
  · trivial

/-- Readers that do not go back can follow each other. -/
theorem Keeps.bind {α β : Type} {p : Parser α} {q : α → Parser β} (hp : Keeps p)
    (hq : ∀ a, Keeps (q a)) : Keeps (bind p q) := by
  intro ts
  have h := hp ts
  unfold Parser.bind
  split
  · next a rest heq =>
    rw [heq] at h
    exact (hq a rest).mono h
  · trivial

theorem advances_expect (kind : TokenKind) : Advances (expect kind) := by
  intro ts
  match ts with
  | [] => trivial
  | t :: ts =>
    simp only [expect]
    split
    · exact Nat.lt_succ_self _
    · trivial

/-- An expression consumes a token, and going on after one does not give tokens back. -/
theorem below_expressionWithin_and_closing (ts : List Token) :
    (∀ opened, Below ts.length (expressionWithin opened ts)) ∧
      ∀ node opened, Below (ts.length + 1) (closing node opened ts) := by
  induction ts with
  | nil =>
    refine ⟨fun opened => ?_, fun node opened => ?_⟩
    · rw [expressionWithin]
      trivial
    · cases opened with
      | nil => rw [closing]; exact Nat.lt_succ_self _
      | cons elements outer => rw [closing]; trivial
  | cons t ts ih =>
    have inside : ∀ opened, Below (t :: ts).length (expressionWithin opened (t :: ts)) := by
      intro opened
      unfold expressionWithin
      split
      · exact ih.2 _ _
      · exact ih.2 _ _
      · exact ih.2 _ _
      · exact (ih.1 _).mono (Nat.le_succ _)
      · exact ih.2 _ _
      · trivial
    refine ⟨inside, fun node opened => ?_⟩
    cases opened with
    | nil => rw [closing]; exact Nat.lt_succ_self _
    | cons elements outer =>
      rw [closing]
      split
      · exact (ih.1 _).mono (by simp only [List.length_cons]; omega)
      · split
        · exact (ih.2 _ _).mono (Nat.le_succ _)
        · trivial

theorem advances_expression : Advances expression :=
  fun ts => (below_expressionWithin_and_closing ts).1 []

/-- An expression takes at least one token, which ends the recursion of argument lists. -/
theorem rest_length_lt_of_expression {ts rest : List Token} {node : Node}
    (h : expression ts = .ok node rest) : rest.length < ts.length := by
  have := advances_expression ts
  rw [h] at this
  exact this

/-! ## Arguments -/

/-- Reads one or more expressions with commas between them. -/
def argumentList (ts : List Token) : Outcome (List Node) :=
  match _h : expression ts with
  | .error e rest => .error e rest
  | .ok node [] => .ok [node] []
  | .ok node (t :: rest) =>
    if t.kind = .comma then
      match argumentList rest with
      | .ok nodes rest => .ok (node :: nodes) rest
      | .error e rest => .error e rest
    else .ok [node] (t :: rest)
termination_by ts.length
decreasing_by
  have := rest_length_lt_of_expression ‹_›
  simp only [List.length_cons] at this
  omega

/-- Reads the arguments of a call, up to the closing parenthesis. -/
def arguments : Parser (List Node) := fun ts =>
  if nextIs .rightParen ts then .ok [] ts else argumentList ts

theorem advances_argumentList : Advances argumentList := by
  intro ts
  fun_induction argumentList ts with
  | case1 => trivial
  | case2 ts node h => exact rest_length_lt_of_expression h
  | case3 ts node t rest h _ nodes rest' heq ih =>
    have := rest_length_lt_of_expression h
    rw [heq] at ih
    exact Nat.lt_trans ih (Nat.lt_of_succ_lt this)
  | case4 => trivial
  | case5 ts node t rest h => exact rest_length_lt_of_expression h

theorem keeps_arguments : Keeps arguments := by
  intro ts
  unfold arguments
  split
  · exact Nat.lt_succ_self _
  · exact (advances_argumentList ts).mono (Nat.le_succ _)

/-! ## Statements -/

/-- Reads the arguments of a call in parentheses and the semicolon after them. -/
def callTail : Parser (List Node) := do
  let _ ← expect .leftParen
  let args ← arguments
  let _ ← expect .rightParen
  let _ ← expect .semicolon
  return args

/-- Reads what follows the core: a call of one of its methods. -/
def coreMember (core : Token) : Parser Node := do
  let _ ← expect .dot
  let method ← expect .identifier
  let args ← callTail
  return ⟨.call, .null, ⟨.core, core.value, []⟩ :: ⟨.method, method.value, []⟩ :: args⟩

/-- Reads a call of a core method. -/
def coreCall : Parser Node := do
  let core ← expect .core
  coreMember core

/-- The error of an object without a call of one of its methods. -/
def missingMember (object : Token) (ts : List Token) : ScriptError :=
  unexpected ("Expected method call on '" ++ object.name ++ "'")
    [TokenKind.dot.name] none ts

/-- Reads the point between an object and its method. -/
def memberDot (object : Token) : Parser Unit
  | [] => .error (missingMember object []) []
  | t :: ts =>
    if t.kind = .dot then .ok () ts
    else .error (missingMember object (t :: ts)) (t :: ts)

/-- Reads what follows the name of an object: a call of one of its methods. -/
def objectCall (object : Token) : Parser Node := do
  memberDot object
  let method ← expect .identifier
  let args ← callTail
  return ⟨.call, .null, ⟨.identifier, object.value, []⟩ :: ⟨.method, method.value, []⟩ :: args⟩

/-- Reads what follows a name that is called directly. -/
def directCall (method : Token) : Parser Node := do
  let args ← callTail
  return ⟨.call, .null, ⟨.method, method.value, []⟩ :: args⟩

/-- The tokens a statement may start with. -/
def statementStarts : List String :=
  [TokenKind.core.name, TokenKind.identifier.name, TokenKind.semicolon.name]

/-- The error of a missing statement. -/
def missingStatement (ts : List Token) : ScriptError :=
  unexpected ("Cannot parse statement starting with " ++ foundName ts) statementStarts none ts

/-- Reads a statement; the empty statement has no node. -/
def statement : Parser (Option Node)
  | [] => .error (missingStatement []) []
  | t :: ts =>
    match t.kind with
    | .semicolon => .ok none ts
    | .core => bind coreCall (fun node => pure (some node)) (t :: ts)
    | .identifier =>
      if nextIs .leftParen ts then bind (directCall t) (fun node => pure (some node)) ts
      else bind (objectCall t) (fun node => pure (some node)) ts
    | _ => .error (missingStatement (t :: ts)) (t :: ts)

/-! ### Properties of readers -/

/-- **A property that passes to readers made of readers.** It holds of every reader that answers at
once, and passes to a reader that goes on after a token, a point or the arguments of a call. The
arguments count together with the parenthesis that ends them. What a reader does after a token may
depend on the value of the token alone. Errors may quote a token only if it may be quoted. -/
structure Composes (Quoted : Token → Prop) (P : (α : Type) → Parser α → Prop) : Prop where
  pure : ∀ {α : Type} (a : α), P α (pure a)
  expect : ∀ {α : Type} {kind : TokenKind} {q : Token → Parser α}, kind ≠ .endOfInput →
    (∀ t t', t.value = t'.value → q t = q t') → (∀ t, P α (q t)) → P α (bind (expect kind) q)
  memberDot : ∀ {α : Type} {object : Token} {q : Unit → Parser α}, Quoted object →
    (∀ u, P α (q u)) → P α (bind (memberDot object) q)
  arguments : ∀ {α : Type} {q : List Node → Parser α}, (∀ nodes, P α (q nodes)) →
    P α (bind arguments fun nodes => bind (Parser.expect .rightParen) fun _ => q nodes)

namespace Composes

variable {Quoted : Token → Prop} {P : (α : Type) → Parser α → Prop}

/-- A token whose value does not matter. -/
theorem skip (h : Composes Quoted P) {α : Type} {kind : TokenKind} {q : Parser α}
    (hkind : kind ≠ .endOfInput) (hq : P α q) : P α (bind (Parser.expect kind) fun _ => q) :=
  h.expect hkind (fun _ _ _ => rfl) fun _ => hq

/-- What follows a call. -/
theorem afterTail (h : Composes Quoted P) {α : Type} {q : List Node → Parser α}
    (hq : ∀ nodes, P α (q nodes)) : P α (bind callTail q) := by
  have hassoc : bind callTail q = bind (Parser.expect .leftParen) fun _ =>
      bind Parser.arguments fun nodes => bind (Parser.expect .rightParen) fun _ =>
        bind (Parser.expect .semicolon) fun _ => q nodes := by
    show bind (bind _ fun _ => bind _ fun _ => bind _ fun _ => bind _ fun _ => Parser.pure _) q = _
    simp only [bind_assoc]
    rfl
  rw [hassoc]
  exact h.skip (by decide) (h.arguments fun nodes => h.skip (by decide) (hq nodes))

/-- The tail of a call is a parenthesis, arguments and a parenthesis. -/
theorem callTail (h : Composes Quoted P) : P _ callTail :=
  h.skip (by decide) (h.arguments fun nodes => h.skip (by decide) (h.pure nodes))

theorem method (h : Composes Quoted P) (front : List Node) :
    P Node (do
      let method ← Parser.expect .identifier
      let args ← Parser.callTail
      return ⟨.call, .null, front ++ ⟨.method, method.value, []⟩ :: args⟩) :=
  h.expect (by decide) (fun t t' ht => by rw [ht]) fun _ => h.afterTail fun _ => h.pure _

theorem coreMember (h : Composes Quoted P) (core : Token) : P _ (coreMember core) :=
  h.skip (by decide) (h.method [⟨.core, core.value, []⟩])

/-- A call on the core is made of readers that follow each other. -/
theorem coreCall (h : Composes Quoted P) : P _ coreCall :=
  h.expect (by decide) (fun t t' ht => by unfold Parser.coreMember; rw [ht]) h.coreMember

/-- A call on an object quotes the object if the dot is missing. -/
theorem objectCall (h : Composes Quoted P) {object : Token} (hobject : Quoted object) :
    P _ (objectCall object) :=
  h.memberDot hobject fun _ => h.method [⟨.identifier, object.value, []⟩]

/-- A call without an object has only a tail. -/
theorem directCall (h : Composes Quoted P) (method : Token) : P _ (directCall method) :=
  h.afterTail fun _ => h.pure _

end Composes

theorem advances_memberDot (object : Token) : Advances (memberDot object) := by
  intro ts
  match ts with
  | [] => trivial
  | t :: ts =>
    simp only [memberDot]
    split
    · exact Nat.lt_succ_self _
    · trivial

/-- Readers that do not go back compose. -/
theorem composes_keeps : Composes (fun _ => True) @Keeps where
  pure := Keeps.pure
  expect _ _ hq := (advances_expect _).keeps.bind hq
  memberDot _ hq := (advances_memberDot _).keeps.bind hq
  arguments hq := keeps_arguments.bind fun nodes => (advances_expect _).keeps.bind fun _ => hq nodes

theorem advances_coreCall : Advances coreCall :=
  (advances_expect _).bind composes_keeps.coreMember

/-- **A statement takes at least one token.** -/
theorem advances_statement : Advances statement := by
  intro ts
  match ts with
  | [] => trivial
  | t :: ts =>
    simp only [statement]
    split
    · exact Nat.lt_succ_self _
    · exact (advances_coreCall.bind fun _ => Keeps.pure _) (t :: ts)
    · split
      · exact ((composes_keeps.directCall t).bind fun _ => Keeps.pure _) ts
      · exact ((composes_keeps.objectCall trivial).bind fun _ => Keeps.pure _) ts
    · trivial

/-- A statement takes at least one token, which ends the recursion of programs. -/
theorem rest_length_lt_of_statement {ts rest : List Token} {node : Option Node}
    (h : statement ts = .ok node rest) : rest.length < ts.length := by
  have := advances_statement ts
  rw [h] at this
  exact this

/-! ## Programs -/

/-- Reads statements up to the end of input. -/
def statements (ts : List Token) : Outcome (List Node) :=
  if nextIs .endOfInput ts then .ok [] ts
  else
    match _h : statement ts with
    | .error e rest => .error e rest
    | .ok node rest =>
      match statements rest with
      | .ok nodes rest => .ok (node.toList ++ nodes) rest
      | .error e rest => .error e rest
termination_by ts.length
decreasing_by exact rest_length_lt_of_statement ‹_›

/-- Reads a program, up to the end of input. -/
def program : Parser Node :=
  bind statements fun nodes => pure ⟨.program, .null, nodes⟩

end Parser

/-- The tree of a list of tokens. Tokens after the first end of input are ignored. -/
def parse (tokens : List Token) : Except ScriptError Node :=
  match Parser.program tokens with
  | .ok node _ => .ok node
  | .error e _ => .error e

/-! ## A cursor over tokens -/

/-- A list of tokens and how far it has been read. -/
structure Cursor where
  tokens : List Token
  pos : Nat := 0

namespace Cursor

/-- The tokens that are left. -/
def rest (c : Cursor) : List Token := c.tokens.drop c.pos

/-- Looks at a token relative to the current one. -/
def peek (c : Cursor) (offset : Int) : Glance Token :=
  glance c.tokens (c.pos + offset)

/-- Lets a reader go on from the cursor, which moves to where the reader stops. -/
def read {α : Type} (c : Cursor) (p : Parser α) : Except ScriptError α × Cursor :=
  match p c.rest with
  | .ok a rest => (.ok a, { c with pos := c.tokens.length - rest.length })
  | .error e rest => (.error e, { c with pos := c.tokens.length - rest.length })

end Cursor

end CallScript
