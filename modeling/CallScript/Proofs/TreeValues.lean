import CallScript.Proofs.SourceConcatenation

/-!
# What trees hold

A tree that was read from tokens holds nothing but the values of the tokens (`Program.holds`). Those
of a source text are texts and floating point numbers.

With dumps turned on a runner draws the tree it has read before it runs it, and only data can be
drawn, and only if none of it is an integer too long to write. So a dump might fail in principle,
and then a run would depend on whether there are dumps. For a tree that was read from text this
never happens (`exists_text_of_parseSource`).
-/

namespace CallScript

open Grammar LexicalGrammar

namespace Node

/-! ## Values in trees -/

mutual

/-- A tree all of whose values have a property. -/
def Holds (P : Value → Prop) : Node → Prop
  | ⟨_, value, children⟩ => P value ∧ HoldAll P children

/-- Trees all of whose values have a property. -/
def HoldAll (P : Value → Prop) : List Node → Prop
  | [] => True
  | n :: ns => n.Holds P ∧ HoldAll P ns

end

theorem Holds.children {P : Value → Prop} : ∀ {n : Node}, n.Holds P → HoldAll P n.children
  | ⟨_, _, _⟩, h => h.2

/-- Trees hold values of a class exactly if each does. -/
theorem holdAll_iff {P : Value → Prop} {nodes : List Node} :
    HoldAll P nodes ↔ ∀ n ∈ nodes, n.Holds P := by
  induction nodes with
  | nil => simp [HoldAll]
  | cons n nodes ih => rw [HoldAll, ih, List.forall_mem_cons]

mutual

/-- A tree that holds values of a class holds values of every larger one. -/
theorem Holds.mono {P Q : Value → Prop} (hPQ : ∀ v, P v → Q v) :
    ∀ {n : Node}, n.Holds P → n.Holds Q
  | ⟨_, _, _⟩, h => ⟨hPQ _ h.1, HoldAll.mono hPQ h.2⟩

theorem HoldAll.mono {P Q : Value → Prop} (hPQ : ∀ v, P v → Q v) :
    ∀ {nodes : List Node}, HoldAll P nodes → HoldAll Q nodes
  | [], _ => trivial
  | _ :: _, h => ⟨h.1.mono hPQ, HoldAll.mono hPQ h.2⟩

end

mutual

theorem holds_true : ∀ n : Node, n.Holds fun _ => True
  | ⟨_, _, children⟩ => ⟨trivial, holdAll_true children⟩

theorem holdAll_true : ∀ nodes : List Node, HoldAll (fun _ => True) nodes
  | [] => trivial
  | n :: nodes => ⟨holds_true n, holdAll_true nodes⟩

end

/-! ## Drawing -/

/-- A value that is a scalar and can be written. -/
def IsShort (v : Value) : Prop := ∃ s, v = .scalar s ∧ Value.isLong s = false

/-- A node whose payload is a short scalar has a label. -/
theorem exists_label (kind : NodeKind) {value : Value} (h : IsShort value) :
    ∃ shown, label ⟨kind, value, []⟩ = .ok shown := by
  obtain ⟨s, rfl, hshort⟩ := h
  unfold label
  split
  · exact ⟨_, rfl⟩
  · rw [Value.data, Value.written_of_short hshort]
    exact ⟨_, rfl⟩

mutual

/-- A tree that holds short scalars can be drawn at any level. -/
theorem Holds.exists_lines : ∀ {n : Node}, n.Holds IsShort → ∀ depth,
    ∃ shown, n.lines depth = .ok shown
  | ⟨kind, value, children⟩, h, depth => by
    obtain ⟨shown, hshown⟩ := exists_label kind h.1
    obtain ⟨rest, hrest⟩ := HoldAll.exists_linesAll h.2 (depth + 1)
    refine ⟨(indent depth ++ shown) :: rest, ?_⟩
    rw [lines, hshown, hrest]
    rfl

theorem HoldAll.exists_linesAll : ∀ {nodes : List Node}, HoldAll IsShort nodes → ∀ depth,
    ∃ shown, linesAll depth nodes = .ok shown
  | [], _, _ => ⟨[], rfl⟩
  | n :: nodes, h, depth => by
    obtain ⟨first, hfirst⟩ := h.1.exists_lines depth
    obtain ⟨rest, hrest⟩ := HoldAll.exists_linesAll h.2 depth
    refine ⟨first ++ rest, ?_⟩
    rw [linesAll, hfirst, hrest]
    rfl

end

end Node

/-! ## Trees of programs -/

namespace Grammar

variable {P : Value → Prop}

theorem holds_leaf (kind : NodeKind) {v : Value} (h : P v) : Node.Holds P ⟨kind, v, []⟩ :=
  ⟨h, trivial⟩

mutual

/-- The values in a tree are those of the tokens, or nothing. -/
theorem Expression.holds (hnull : P .null) : ∀ e : Expression, (∀ t ∈ e.tokens, P t.value) →
    e.node.Holds P
  | .string t, h => holds_leaf _ (h t.val (by simp [Expression.tokens]))
  | .number t, h => holds_leaf _ (h t.val (by simp [Expression.tokens]))
  | .identifier t, h => holds_leaf _ (h t.val (by simp [Expression.tokens]))
  | .array _ elements _, h =>
    ⟨hnull, elements.holds hnull fun t ht => h t (by simp [Expression.tokens, ht])⟩

theorem Items.holds (hnull : P .null) : ∀ items : Items, (∀ t ∈ items.tokens, P t.value) →
    Node.HoldAll P items.nodes
  | .none, _ => trivial
  | .some first more, h =>
    ⟨first.holds hnull fun t ht => h t (by simp [Items.tokens, ht]),
      more.holds hnull fun t ht => h t (by simp [Items.tokens, ht])⟩

theorem More.holds (hnull : P .null) : ∀ more : More, (∀ t ∈ more.tokens, P t.value) →
    Node.HoldAll P more.nodes
  | .done, _ => trivial
  | .next _ item more, h =>
    ⟨item.holds hnull fun t ht => h t (by simp [More.tokens, ht]),
      more.holds hnull fun t ht => h t (by simp [More.tokens, ht])⟩

end

theorem Tail.holds (hnull : P .null) (tail : Tail) (h : ∀ t ∈ tail.tokens, P t.value) :
    Node.HoldAll P tail.arguments.nodes :=
  tail.arguments.holds hnull fun t ht => h t (by simp [Tail.tokens, ht])

/-- **A statement holds values of its tokens only.** -/
theorem Statement.holds (hnull : P .null) (s : Statement) (h : ∀ t ∈ s.tokens, P t.value) :
    ∀ n ∈ s.node?, n.Holds P := by
  cases s with
  | empty => simp [Statement.node?]
  | coreCall core dot method tail =>
    rintro n ⟨⟩
    simp only [Statement.tokens, List.forall_mem_cons] at h
    obtain ⟨hcore, -, hmethod, htail⟩ := h
    exact ⟨hnull, holds_leaf _ hcore, holds_leaf _ hmethod, tail.holds hnull htail⟩
  | directCall method tail =>
    rintro n ⟨⟩
    simp only [Statement.tokens, List.forall_mem_cons] at h
    exact ⟨hnull, holds_leaf _ h.1, tail.holds hnull h.2⟩
  | objectCall object dot method tail =>
    rintro n ⟨⟩
    simp only [Statement.tokens, List.forall_mem_cons] at h
    obtain ⟨hobject, -, hmethod, htail⟩ := h
    exact ⟨hnull, holds_leaf _ hobject, holds_leaf _ hmethod, tail.holds hnull htail⟩

/-- **The tree of a program holds the values of its tokens**, and null. -/
theorem Program.holds (hnull : P .null) (d : Program) (h : ∀ t ∈ d.tokens, P t.value) :
    d.node.Holds P := by
  refine ⟨hnull, Node.holdAll_iff.mpr fun n hn => ?_⟩
  obtain ⟨s, hs, hsn⟩ := List.mem_filterMap.mp hn
  exact s.holds hnull (fun t ht => h t (List.mem_flatMap.mpr ⟨s, hs, ht⟩)) n hsn

end Grammar

/-- No lexeme is an integer: the numbers of a source text are floating point numbers. -/
theorem LexicalGrammar.FromLexeme.isShort {t : Token} (h : FromLexeme t) :
    Node.IsShort t.value := by
  obtain ⟨text, behind, value, hlexeme, hvalue⟩ := h
  refine ⟨value, hvalue, ?_⟩
  generalize t.kind = kind at hlexeme
  cases hlexeme <;> rfl

/-- A tree that was read from a source text holds short scalars. -/
theorem holds_of_parseSource {source : String} {program : Node}
    (h : parseSource source = .ok program) : program.Holds Node.IsShort := by
  obtain ⟨f, d, htokens, rfl⟩ := exists_program_of_parseSource h
  refine d.holds ⟨.null, rfl, rfl⟩ fun t ht => ?_
  rw [← htokens] at ht
  have hlexeme : FromLexeme t := fromLexeme_of_mem_tokensAfter f.sequence [] ht
  exact FromLexeme.isShort hlexeme

/-- A tree that was read from a source text can be drawn. -/
theorem exists_text_of_parseSource {source : String} {program : Node}
    (h : parseSource source = .ok program) : ∃ text, program.text 0 = .ok text := by
  obtain ⟨shown, hshown⟩ := (holds_of_parseSource h).exists_lines 0
  exact ⟨_, by rw [Node.text, hshown]; rfl⟩

end CallScript
