import CallScript.Node.Basic
import CallScript.Proofs.DataForms
import Mathlib.Data.List.Forall2

/-!
# Drawings of trees

A drawing has one line for each node of a tree, in pre-order, indented by the level of the node. The
payload of a node is drawn as data, so no payload breaks a line (`Node.splitAt_text`), however much
it looks like lines of a drawing itself.

The drawing tells the tree. Its lines are the pieces between line feeds; the blanks before a line
tell the level of its node, since no label starts with a blank, and the label tells the kind and the
payload (`Node.same_of_label`). What is left is to tell a forest from its nodes and their levels in
pre-order: the children of a node are the stretch of deeper nodes behind it
(`Node.sameAll_of_marks`).
-/

namespace CallScript

/-- Two texts that are cut where a class of characters ends are cut at the same place. -/
theorem append_inj_of_class {α : Type} {inClass : α → Bool} {a b x y : List α}
    (ha : ∀ c ∈ a, inClass c = true) (hb : ∀ c ∈ b, inClass c = true)
    (hx : ∀ c ∈ x.head?, inClass c = false) (hy : ∀ c ∈ y.head?, inClass c = false)
    (h : a ++ x = b ++ y) : a = b ∧ x = y := by
  have hrun : ∀ {a x : List α}, (∀ c ∈ a, inClass c = true) →
      (∀ c ∈ x.head?, inClass c = false) → (a ++ x).takeWhile inClass = a := by
    intro a x ha hx
    rw [List.takeWhile_append_of_pos ha]
    cases x with
    | nil => exact List.append_nil a
    | cons c x => rw [List.takeWhile_cons_of_neg (by simp [hx c rfl]), List.append_nil]
  have hab : a = b := by rw [← hrun ha hx, h, hrun hb hy]
  subst hab
  exact ⟨rfl, List.append_cancel_left h⟩

/-! ## Lines of a text -/

namespace Text

variable {sep : Char}

theorem exists_splitAt (sep : Char) (cs : List Char) :
    ∃ piece pieces, splitAt sep cs = piece :: pieces := by
  cases cs with
  | nil => exact ⟨[], [], rfl⟩
  | cons c cs =>
    rw [splitAt]
    split
    · exact ⟨_, _, rfl⟩
    · split <;> exact ⟨_, _, rfl⟩

theorem splitAt_cons_sep (sep : Char) (cs : List Char) :
    splitAt sep (sep :: cs) = [] :: splitAt sep cs := by
  obtain ⟨piece, pieces, h⟩ := exists_splitAt sep cs
  rw [splitAt, h]
  exact if_pos rfl

theorem splitAt_cons_of_ne {c : Char} (hc : c ≠ sep) {cs piece : List Char}
    {pieces : List (List Char)} (h : splitAt sep cs = piece :: pieces) :
    splitAt sep (c :: cs) = (c :: piece) :: pieces := by
  rw [splitAt, h]
  exact if_neg hc

/-- Up to a first separator a text is one piece. -/
theorem splitAt_append_sep {cs : List Char} (h : sep ∉ cs) (rest : List Char) :
    splitAt sep (cs ++ sep :: rest) = cs :: splitAt sep rest := by
  induction cs with
  | nil => exact splitAt_cons_sep sep rest
  | cons c cs ih =>
    rw [List.mem_cons, not_or] at h
    exact splitAt_cons_of_ne (Ne.symm h.1) (ih h.2)

theorem splitAt_of_not_mem {cs : List Char} (h : sep ∉ cs) : splitAt sep cs = [cs] := by
  induction cs with
  | nil => rfl
  | cons c cs ih =>
    rw [List.mem_cons, not_or] at h
    exact splitAt_cons_of_ne (Ne.symm h.1) (ih h.2)

/-- **Lines that were joined are cut apart again.** -/
theorem splitAt_joinWith (first : String) (lines : List String)
    (h : ∀ line ∈ first :: lines, '\n' ∉ line.toList) :
    splitAt '\n' (joinWith "\n" (first :: lines)).toList = (first :: lines).map String.toList := by
  induction lines generalizing first with
  | nil => exact splitAt_of_not_mem (h first List.mem_cons_self)
  | cons second lines ih =>
    rw [List.forall_mem_cons] at h
    have hjoin : (joinWith "\n" (first :: second :: lines)).toList
        = first.toList ++ '\n' :: (joinWith "\n" (second :: lines)).toList := by
      rw [joinWith, String.toList_append, String.toList_append]
      simp
    rw [hjoin, splitAt_append_sep h.1, ih second h.2]
    rfl

end Text

/-! ## Trees and their nodes -/

/-- What the nodes of a tree hold: nothing, a text or a number. -/
def Scalar.isPayload : Scalar → Bool
  | .null => true
  | .text _ => true
  | .unresolved _ => true
  | .float _ => true
  | _ => false

/-- **Payloads that are equal**, where numbers are compared by their display forms. -/
inductive Scalar.SamePayload : Scalar → Scalar → Prop
  | null : SamePayload .null .null
  | text {s t : Scalar} {content : String} (hs : s.text? = some content)
      (ht : t.text? = some content) : SamePayload s t
  | float {x y : Binary64} (h : x.display = y.display) : SamePayload (.float x) (.float y)

/-- Only payloads are the same as payloads. -/
theorem Scalar.SamePayload.isPayload {s t : Scalar} (h : s.SamePayload t) :
    s.isPayload = true ∧ t.isPayload = true := by
  have htext : ∀ {u : Scalar} {content : String}, u.text? = some content → u.isPayload = true := by
    intro u content hu
    cases u <;> first | rfl | cases hu
  cases h with
  | null => exact ⟨rfl, rfl⟩
  | text hs ht => exact ⟨htext hs, htext ht⟩
  | float _ => exact ⟨rfl, rfl⟩

namespace Node

/-- **A tree of any shape** whose nodes hold nothing, texts or numbers. -/
inductive Simple : Node → Prop
  | mk {kind : NodeKind} {payload : Scalar} {children : List Node}
      (hpayload : payload.isPayload = true) (hchildren : ∀ child ∈ children, Simple child) :
      Simple ⟨kind, .scalar payload, children⟩

mutual

/-- **Trees that are equal**, where numbers are compared by their display forms. -/
inductive Same : Node → Node → Prop
  | mk {kind : NodeKind} {s t : Scalar} {children children' : List Node} (h : s.SamePayload t)
      (hchildren : SameAll children children') :
      Same ⟨kind, .scalar s, children⟩ ⟨kind, .scalar t, children'⟩

/-- Forests that are equal. -/
inductive SameAll : List Node → List Node → Prop
  | nil : SameAll [] []
  | cons {n m : Node} {ns ms : List Node} (h : Same n m) (hs : SameAll ns ms) :
      SameAll (n :: ns) (m :: ms)

end

mutual

/-- **The nodes of a tree in pre-order**, each with its level; the root is at the given level. -/
def preorder (level : Nat) : Node → List (Nat × Node)
  | ⟨kind, value, children⟩ =>
    (level, ⟨kind, value, children⟩) :: preorderAll (level + 1) children

/-- The nodes of a forest in pre-order. -/
def preorderAll (level : Nat) : List Node → List (Nat × Node)
  | [] => []
  | n :: ns => preorder level n ++ preorderAll level ns

end

/-! ## Labels -/

/-- The payload of a node in its label. -/
def payloadText : Scalar → String
  | .null => ""
  | s => "(" ++ s.data ++ ")"

theorem payloadText_of_text {s : Scalar} {content : String} (h : s.text? = some content) :
    payloadText s = "(" ++ Text.data content ++ ")" := by
  cases s <;> cases h <;> rfl

/-- The label of a node, for a node that can be drawn. -/
def headline (n : Node) : String :=
  match n.value with
  | .scalar payload => n.kind.name ++ payloadText payload
  | _ => n.kind.name

/-- The label of a node is its kind with its payload. -/
theorem label_scalar (kind : NodeKind) {payload : Scalar} (h : payload.isPayload = true)
    (children : List Node) :
    label ⟨kind, .scalar payload, children⟩ = .ok (kind.name ++ payloadText payload) := by
  cases payload with
  | null =>
    show Except.ok kind.name = _
    rw [payloadText, String.append_empty]
  | int n => cases h
  | _ =>
    rw [payloadText, ← String.append_assoc, ← String.append_assoc]
    · rfl
    · simp

/-- Kinds of nodes have different names. -/
theorem name_injective {kind kind' : NodeKind} (h : kind.name = kind'.name) : kind = kind' := by
  revert h
  cases kind <;> cases kind' <;> simp [NodeKind.name]

theorem isUpper_of_mem_name (kind : NodeKind) : ∀ c ∈ kind.name.toList, c.isUpper = true := by
  refine List.all_eq_true.mp ?_
  cases kind <;> rfl

/-- A payload that is no text is nothing or a number. -/
theorem eq_null_or_float {s : Scalar} (hs : s.isPayload = true) (htext : s.text? = none) :
    s = .null ∨ ∃ x, s = .float x := by
  cases s with
  | null => exact .inl rfl
  | float x => exact .inr ⟨x, rfl⟩
  | text content => cases htext
  | unresolved content => cases htext
  | bool b => cases hs
  | int k => cases hs

/-- Only the payload of a text has quotes. -/
theorem quote_mem_payloadText_iff {s : Scalar} (hs : s.isPayload = true) :
    '"' ∈ (payloadText s).toList ↔ s.text?.isSome = true := by
  cases htext : s.text? with
  | some content =>
    rw [payloadText_of_text htext]
    simp [Text.data]
  | none =>
    obtain rfl | ⟨x, rfl⟩ := eq_null_or_float hs htext
    · simp [payloadText]
    · have hquote : '"' ∉ x.data.toList := fun h => by
        have hdata := Binary64.isDataChar_of_mem_data x _ h
        revert hdata
        decide
      simp [payloadText, Scalar.data, hquote]

/-- **A payload is told by its text.** -/
theorem samePayload_of_payloadText {s t : Scalar} (hs : s.isPayload = true)
    (ht : t.isPayload = true) (h : payloadText s = payloadText t) : s.SamePayload t := by
  have htext : s.text?.isSome = t.text?.isSome := by
    rw [Bool.eq_iff_iff, ← quote_mem_payloadText_iff hs, ← quote_mem_payloadText_iff ht, h]
  cases hcontent : s.text? with
  | some content =>
    rw [hcontent] at htext
    obtain ⟨content', hcontent'⟩ := Option.isSome_iff_exists.mp htext.symm
    rw [payloadText_of_text hcontent, payloadText_of_text hcontent', ← String.toList_inj] at h
    simp only [String.toList_append, List.append_assoc] at h
    obtain ⟨rfl, -⟩ := Text.eq_of_data_append (List.append_cancel_left h)
    exact .text hcontent hcontent'
  | none =>
    rw [hcontent, Option.isSome_none, eq_comm, Option.isSome_eq_false_iff,
      Option.isNone_iff_eq_none] at htext
    have hopen : ∀ x : Binary64, payloadText (.float x) ≠ "" := by simp [payloadText]
    obtain rfl | ⟨x, rfl⟩ := eq_null_or_float hs hcontent
    · obtain rfl | ⟨y, rfl⟩ := eq_null_or_float ht htext
      · exact .null
      · exact absurd h.symm (hopen y)
    · obtain rfl | ⟨y, rfl⟩ := eq_null_or_float ht htext
      · exact absurd h (hopen x)
      · refine .float (Binary64.data_eq_iff.mp ?_)
        simpa [payloadText, Scalar.data] using h

/-- Payloads that are the same are written alike. -/
theorem payloadText_of_samePayload {s t : Scalar} (h : s.SamePayload t) :
    payloadText s = payloadText t := by
  cases h with
  | null => rfl
  | text hs ht => rw [payloadText_of_text hs, payloadText_of_text ht]
  | float h =>
    show "(" ++ Binary64.data _ ++ ")" = "(" ++ Binary64.data _ ++ ")"
    rw [Binary64.data_eq_iff.mpr h]

/-- **The label of a node tells its kind and its payload.** -/
theorem same_of_label {kind kind' : NodeKind} {s t : Scalar} (hs : s.isPayload = true)
    (ht : t.isPayload = true) (h : kind.name ++ payloadText s = kind'.name ++ payloadText t) :
    kind = kind' ∧ s.SamePayload t := by
  have hpayload : ∀ s : Scalar, ∀ c ∈ (payloadText s).toList.head?, c.isUpper = false := by
    intro s
    cases s <;> simp [payloadText]
  rw [← String.toList_inj, String.toList_append, String.toList_append] at h
  obtain ⟨hkind, htext⟩ := append_inj_of_class (isUpper_of_mem_name kind)
    (isUpper_of_mem_name kind') (hpayload s) (hpayload t) h
  exact ⟨name_injective (String.toList_inj.mp hkind),
    samePayload_of_payloadText hs ht (String.toList_inj.mp htext)⟩

/-! ## Lines of a drawing -/

/-- The line of a node at a level. -/
def line (p : Nat × Node) : String := indent p.1 ++ headline p.2

/-- The nodes below are those of each child, one child after the other. -/
theorem preorderAll_eq_flatMap (level : Nat) (nodes : List Node) :
    preorderAll level nodes = nodes.flatMap (preorder level) := by
  induction nodes with
  | nil => rfl
  | cons n nodes ih => rw [preorderAll, ih, List.flatMap_cons]

/-- The lines of nodes are those of each, if these are those of its nodes in order. -/
theorem linesAll_eq {level : Nat} {nodes : List Node}
    (h : ∀ n ∈ nodes, n.lines level = .ok ((n.preorder level).map line)) :
    linesAll level nodes = .ok ((preorderAll level nodes).map line) := by
  induction nodes with
  | nil => rfl
  | cons n nodes ih =>
    rw [List.forall_mem_cons] at h
    rw [linesAll, h.1, ih h.2, preorderAll, List.map_append]
    rfl

/-- **A tree is drawn with one line per node**, in pre-order. -/
theorem Simple.lines_eq {n : Node} (h : n.Simple) (level : Nat) :
    n.lines level = .ok ((n.preorder level).map line) := by
  induction h generalizing level with
  | @mk kind payload children hpayload _ ih =>
    have hchildren := linesAll_eq fun child hchild => ih child hchild (level + 1)
    rw [lines, label_scalar kind hpayload, preorder, List.map_cons]
    rw [show (level : Int) + 1 = ((level + 1 : Nat) : Int) from rfl, hchildren]
    rfl

/-- The nodes of a simple tree are simple, and none is above the root. -/
theorem Simple.of_mem_preorder {n : Node} (h : n.Simple) {level : Nat} {p : Nat × Node}
    (hp : p ∈ n.preorder level) : p.2.Simple ∧ level ≤ p.1 := by
  induction h generalizing level with
  | @mk kind payload children hpayload hchildren ih =>
    rw [preorder, List.mem_cons, preorderAll_eq_flatMap, List.mem_flatMap] at hp
    obtain rfl | ⟨child, hchild, hp⟩ := hp
    · exact ⟨.mk hpayload hchildren, Nat.le_refl level⟩
    · obtain ⟨hsimple, hlevel⟩ := ih child hchild hp
      exact ⟨hsimple, Nat.le_of_succ_le hlevel⟩

/-- A payload is written in one line, for line feeds in it are escaped. -/
theorem lineFeed_not_mem_payloadText {s : Scalar} (hs : s.isPayload = true) :
    '\n' ∉ (payloadText s).toList := by
  cases htext : s.text? with
  | some content =>
    rw [payloadText_of_text htext]
    simp [Text.lineFeed_not_mem_data]
  | none =>
    obtain rfl | ⟨x, rfl⟩ := eq_null_or_float hs htext
    · simp [payloadText]
    · have hdata : '\n' ∉ x.data.toList := fun h => by
        have hchar := Binary64.isDataChar_of_mem_data x _ h
        revert hchar
        decide
      simp [payloadText, Scalar.data, hdata]

/-- The label of a simple node is in one line and does not start with a blank. -/
theorem Simple.label_eq {n : Node} (h : n.Simple) :
    n.label = .ok n.headline ∧ '\n' ∉ n.headline.toList ∧
      ∃ c rest, n.headline.toList = c :: rest ∧ c ≠ ' ' := by
  obtain @⟨kind, payload, children, hpayload, -⟩ := h
  have hheadline : (headline ⟨kind, .scalar payload, children⟩).toList
      = kind.name.toList ++ (payloadText payload).toList := String.toList_append
  refine ⟨label_scalar kind hpayload children, ?_, ?_⟩
  · rw [hheadline, List.mem_append, not_or]
    refine ⟨fun hmem => ?_, lineFeed_not_mem_payloadText hpayload⟩
    exact absurd (isUpper_of_mem_name kind _ hmem) (by decide)
  · obtain ⟨c, rest, hname⟩ : ∃ c rest, kind.name.toList = c :: rest := by
      cases kind <;> exact ⟨_, _, rfl⟩
    refine ⟨c, rest ++ (payloadText payload).toList, by rw [hheadline, hname]; rfl, ?_⟩
    rintro rfl
    exact absurd (isUpper_of_mem_name kind ' ' (by rw [hname]; exact List.mem_cons_self))
      (by decide)

theorem toList_indent (level : Nat) :
    (indent level).toList = List.replicate (2 * level) ' ' := String.toList_ofList

/-- **Each node takes one line.** -/
theorem lineFeed_not_mem_line {p : Nat × Node} (h : p.2.Simple) : '\n' ∉ (line p).toList := by
  rw [line, String.toList_append, toList_indent, List.mem_append, not_or]
  exact ⟨fun hmem => absurd (List.eq_of_mem_replicate hmem) (by decide), h.label_eq.2.1⟩

/-- **The drawing of a tree, cut at line feeds**: no payload breaks a line. -/
theorem Simple.splitAt_text {n : Node} (h : n.Simple) (level : Nat) :
    ∃ text, n.text level = .ok text ∧
      Text.splitAt '\n' text.toList = (n.preorder level).map fun p => (line p).toList := by
  have hlines : ∀ shown ∈ (n.preorder level).map line, '\n' ∉ shown.toList := by
    intro shown hshown
    obtain ⟨p, hp, rfl⟩ := List.mem_map.mp hshown
    exact lineFeed_not_mem_line (h.of_mem_preorder hp).1
  refine ⟨Text.joinWith "\n" ((n.preorder level).map line), ?_, ?_⟩
  · rw [text, h.lines_eq]
    rfl
  · obtain ⟨kind, value, children⟩ := n
    rw [preorder, List.map_cons] at hlines ⊢
    rw [Text.splitAt_joinWith _ _ hlines, ← List.map_cons, List.map_map]
    rfl

/-! ## Telling a tree from its drawing -/

/-- What a line tells: the level of a node and its label. -/
def reading (line : List Char) : Nat × List Char :=
  ((line.takeWhile (· = ' ')).length / 2, line.dropWhile (· = ' '))

/-- What the drawing of a tree tells of a node. -/
def mark (p : Nat × Node) : Nat × List Char := (p.1, p.2.headline.toList)

/-- **A line tells the level, the kind and the payload of its node.** -/
theorem reading_line {p : Nat × Node} (h : p.2.Simple) : reading (line p).toList = mark p := by
  obtain ⟨-, -, c, rest, hheadline, hc⟩ := h.label_eq
  have hblank : ∀ d ∈ List.replicate (2 * p.1) ' ', decide (d = ' ') = true := by
    intro d hd
    exact decide_eq_true (List.eq_of_mem_replicate hd)
  rw [line, String.toList_append, toList_indent, reading, mark,
    List.takeWhile_append_of_pos hblank, List.dropWhile_append_of_pos hblank, hheadline,
    List.takeWhile_cons_of_neg (by simpa using hc), List.dropWhile_cons_of_neg (by simpa using hc),
    List.append_nil, List.length_replicate, Nat.mul_div_cancel_left _ (by decide)]

/-- Drawings that are equal have equal marks, line by line. -/
theorem marks_eq_of_text {n m : Node} (hn : n.Simple) (hm : m.Simple) {level : Nat}
    (h : n.text level = m.text level) :
    (n.preorder level).map mark = (m.preorder level).map mark := by
  have hmarks : ∀ {k : Node}, k.Simple →
      ((k.preorder level).map fun p => (line p).toList).map reading
        = (k.preorder level).map mark := by
    intro k hk
    rw [List.map_map]
    exact List.map_congr_left fun p hp => reading_line (hk.of_mem_preorder hp).1
  obtain ⟨text, htext, hlines⟩ := hn.splitAt_text level
  obtain ⟨text', htext', hlines'⟩ := hm.splitAt_text level
  rw [htext, htext'] at h
  rw [← hmarks hn, ← hmarks hm, ← hlines, ← hlines', Except.ok.inj h]

/-- The marks below a node are those that are deeper than it, up to the first that is not. -/
theorem append_inj_of_marks {level : Nat} {cs ds ns ms : List Node}
    (hcs : ∀ n ∈ cs, n.Simple) (hds : ∀ n ∈ ds, n.Simple)
    (h : (preorderAll (level + 1) cs).map mark ++ (preorderAll level ns).map mark
      = (preorderAll (level + 1) ds).map mark ++ (preorderAll level ms).map mark) :
    (preorderAll (level + 1) cs).map mark = (preorderAll (level + 1) ds).map mark ∧
      (preorderAll level ns).map mark = (preorderAll level ms).map mark := by
  have hdeep : ∀ {cs : List Node}, (∀ n ∈ cs, n.Simple) →
      ∀ x ∈ (preorderAll (level + 1) cs).map mark, decide (level < x.1) = true := by
    intro cs hcs x hx
    obtain ⟨p, hp, rfl⟩ := List.mem_map.mp hx
    rw [preorderAll_eq_flatMap] at hp
    obtain ⟨n, hn, hp⟩ := List.mem_flatMap.mp hp
    exact decide_eq_true ((hcs n hn).of_mem_preorder hp).2
  have hfirst : ∀ {ns : List Node}, ∀ x ∈ ((preorderAll level ns).map mark).head?,
      decide (level < x.1) = false := by
    intro ns x hx
    cases ns with
    | nil => cases hx
    | cons n ns =>
      obtain ⟨kind, value, children⟩ := n
      rw [preorderAll, preorder] at hx
      obtain rfl := Option.some.inj hx
      exact decide_eq_false (Nat.lt_irrefl level)
  exact append_inj_of_class (hdeep hcs) (hdeep hds) hfirst hfirst h

/-- **A forest is told by its nodes in pre-order and their levels.** The recursion follows the first
forest: into the children of its first tree, and on to its other trees. -/
theorem sameAll_of_marks {level : Nat} : ∀ {ns ms : List Node}, (∀ n ∈ ns, n.Simple) →
    (∀ m ∈ ms, m.Simple) →
    (preorderAll level ns).map mark = (preorderAll level ms).map mark → SameAll ns ms
  | [], [], _, _, _ => .nil
  | [], ⟨kind, value, children⟩ :: ms, _, _, h => by
    rw [preorderAll, preorderAll, preorder] at h
    cases h
  | ⟨kind, value, children⟩ :: ns, [], _, _, h => by
    rw [preorderAll, preorderAll, preorder] at h
    cases h
  | ⟨kind, value, cs⟩ :: ns, ⟨kind', value', ds⟩ :: ms, hns, hms, h => by
    rw [List.forall_mem_cons] at hns hms
    obtain ⟨@⟨_, s, _, hs, hcs⟩, hns⟩ := hns
    obtain ⟨@⟨_, t, _, ht, hds⟩, hms⟩ := hms
    rw [preorderAll, preorderAll, preorder, preorder, List.cons_append, List.cons_append,
      List.map_cons, List.map_cons, List.map_append, List.map_append] at h
    obtain ⟨hhead, htail⟩ := List.cons.inj h
    have hlabel := String.toList_inj.mp (Prod.mk.inj hhead).2
    obtain ⟨rfl, hpayload⟩ := same_of_label hs ht hlabel
    obtain ⟨hbelow, hafter⟩ := append_inj_of_marks hcs hds htail
    exact .cons (.mk hpayload (sameAll_of_marks hcs hds hbelow)) (sameAll_of_marks hns hms hafter)

/-- **A drawing tells the tree**: level by level the marks in order are those of one tree only. -/
theorem same_of_text {n m : Node} (hn : n.Simple) (hm : m.Simple) {level : Nat}
    (h : n.text level = m.text level) : n.Same m := by
  have hmarks := marks_eq_of_text hn hm h
  have hforest : SameAll [n] [m] := by
    refine @sameAll_of_marks level [n] [m] (by simpa using hn) (by simpa using hm) ?_
    simpa [preorderAll_eq_flatMap] using hmarks
  cases hforest with
  | cons hsame _ => exact hsame

mutual

/-- Equal trees are drawn alike. -/
theorem Same.lines_eq : ∀ {n m : Node}, n.Same m → ∀ depth, n.lines depth = m.lines depth
  | _, _, .mk h hchildren, depth => by
    rw [lines, lines, label_scalar _ h.isPayload.1, label_scalar _ h.isPayload.2,
      payloadText_of_samePayload h, hchildren.linesAll_eq (depth + 1)]

theorem SameAll.linesAll_eq : ∀ {ns ms : List Node}, SameAll ns ms →
    ∀ depth, linesAll depth ns = linesAll depth ms
  | _, _, .nil, _ => rfl
  | _, _, .cons h hs, depth => by
    rw [linesAll, linesAll, h.lines_eq depth, hs.linesAll_eq depth]

end

/-- **A line of a drawing**: the line of a node starts with exactly two blanks for each level, and
its label follows. -/
def IsLineOf (line : List Char) (p : Nat × Node) : Prop :=
  ∃ c rest, c ≠ ' ' ∧ p.2.label = .ok (String.ofList (c :: rest)) ∧
    line = List.replicate (2 * p.1) ' ' ++ c :: rest

/-- A line is that of its node. -/
theorem isLineOf_line {p : Nat × Node} (h : p.2.Simple) : IsLineOf (line p).toList p := by
  obtain ⟨hlabel, -, c, rest, hheadline, hc⟩ := h.label_eq
  refine ⟨c, rest, hc, ?_, ?_⟩
  · rw [hlabel, ← hheadline, String.ofList_toList]
  · rw [line, String.toList_append, toList_indent, hheadline]

end Node

/-- **A drawing is a faithful picture of the tree.** Let a tree of any shape hold nothing, texts and
numbers, and let it be drawn from any level on. Then it can be drawn, and cut at line feeds the
drawing has exactly one line for each node, in pre-order; the line of a node starts with exactly two
blanks for each level and shows its label. And two such trees have the same drawing exactly if they
are equal, where numbers are compared by their display forms. -/
theorem drawing_tells_tree (level : Nat) :
    (∀ n : Node, n.Simple → ∃ text, n.text level = .ok text ∧
      List.Forall₂ Node.IsLineOf (Text.splitAt '\n' text.toList) (n.preorder level)) ∧
    ∀ n m : Node, n.Simple → m.Simple → (n.text level = m.text level ↔ n.Same m) := by
  refine ⟨fun n hn => ?_, fun n m hn hm => ⟨Node.same_of_text hn hm, fun h => ?_⟩⟩
  · obtain ⟨text, htext, hlines⟩ := hn.splitAt_text level
    refine ⟨text, htext, ?_⟩
    rw [hlines, List.forall₂_map_left_iff, List.forall₂_same]
    exact fun p hp => Node.isLineOf_line (hn.of_mem_preorder hp).1
  · rw [Node.text, Node.text, h.lines_eq]

/-- A tree whose second node holds a text that looks like the rest of a drawing. -/
def misleadingTree : Node :=
  ⟨.program, .null, [⟨.string, .text "a\")\n  STRING(\"b", []⟩]⟩

/-- The tree that this text looks like. -/
def suggestedTree : Node :=
  ⟨.program, .null, [⟨.string, .text "a", []⟩, ⟨.string, .text "b", []⟩]⟩

/-- A text that looks like a drawing is drawn in one line, and nothing else has that drawing. -/
theorem misleadingTree_not_mistaken :
    misleadingTree.Simple ∧ suggestedTree.Simple ∧
    (∃ text, misleadingTree.text 1 = .ok text ∧
      (Text.splitAt '\n' text.toList).length = 2) ∧
    misleadingTree.text 1 ≠ suggestedTree.text 1 := by
  have hleaf : ∀ s : String, Node.Simple ⟨.string, .text s, []⟩ := fun s => .mk rfl (by simp)
  have hmisleading : misleadingTree.Simple := .mk rfl (by simpa using hleaf _)
  have hsuggested : suggestedTree.Simple := .mk rfl (by simpa using ⟨hleaf _, hleaf _⟩)
  obtain ⟨hpicture, htold⟩ := drawing_tells_tree 1
  obtain ⟨text, htext, hlines⟩ := hpicture misleadingTree hmisleading
  refine ⟨hmisleading, hsuggested, ⟨text, htext, hlines.length_eq⟩, fun h => ?_⟩
  cases (htold misleadingTree suggestedTree hmisleading hsuggested).mp h with
  | mk _ hchildren =>
    cases hchildren with
    | cons _ hrest => cases hrest

end CallScript
