import CallScript.Proofs.DataValues
import CallScript.Proofs.LogProtocol
import CallScript.Proofs.Reachability

/-!
# What the trace of a call tells

The trace of a call shows its label and, in parentheses, its arguments. If the arguments are data,
then the trace tells the call: calls with one trace have one label and equal arguments
(`trace_tells_call`), though arguments are separated as the items of lists are, and texts may hold
separators, quotes and parentheses.

A label is made of names and a point, and so it ends at the first parenthesis
(`Calling.isLabelChar_of_verdict`). That holds because the names of a call are those of identifiers
of the source (`Calling.exists_token_of_reads`). Behind the parenthesis stands a sequence of data
that another one closes.
-/

namespace CallScript

open Grammar CallScript.Action

variable {invoke : Invoke} {i : Nat} {s t : Session}

/-! ## Labels -/

/-- The characters of labels. -/
def isLabelChar (c : Char) : Bool := Lexer.isNameChar c || c = '.'

/-- The characters of a name may stand in a label, and so no parenthesis is among them. -/
theorem isLabelChar_of_isName {x : String} (h : Registry.isName x.toList = true) :
    ∀ c ∈ x.toList, isLabelChar c = true := by
  intro c hc
  rw [isLabelChar, Registry.isNameChar_of_isName h c hc, Bool.true_or]

namespace Calling

/-- The names that a call is made by. -/
def Callee.names : Callee → List String
  | .core method => [method]
  | .object x method => [x, method]
  | .direct method => [method]

/-- **The names of a call are those of identifiers** of its statement. -/
theorem exists_token_of_reads {d : Statement} {node : Node} {callee : Callee}
    {arguments : List Argument} (hnode : d.node? = some node) (h : Reads node callee arguments) :
    ∀ x ∈ callee.names, ∃ t ∈ d.tokens, t.kind = .identifier ∧ t.value.text? = some x := by
  cases d with
  | empty semicolon => cases hnode
  | coreCall core dot method tail =>
    obtain rfl := Option.some.inj hnode
    cases h with
    | core hmethod h =>
      simp only [Callee.names, List.mem_singleton, forall_eq]
      exact ⟨method.val, by simp [Statement.tokens], method.property, hmethod⟩
  | directCall method tail =>
    obtain rfl := Option.some.inj hnode
    cases h with
    | direct hmethod h =>
      simp only [Callee.names, List.mem_singleton, forall_eq]
      exact ⟨method.val, by simp [Statement.tokens], method.property, hmethod⟩
  | objectCall object dot method tail =>
    obtain rfl := Option.some.inj hnode
    cases h with
    | object hobject hmethod h =>
      refine List.forall_mem_cons.mpr ⟨?_, List.forall_mem_singleton.mpr ?_⟩
      · exact ⟨object.val, by simp [Statement.tokens], object.property, hobject⟩
      · exact ⟨method.val, by simp [Statement.tokens], method.property, hmethod⟩

/-- **A label is made of names and a point.** -/
theorem isLabelChar_of_verdict {callee : Callee} {arguments : List Argument} {label : String}
    {method : Value} {values : List Value}
    (hnames : ∀ x ∈ callee.names, Registry.isName x.toList = true)
    (h : verdict s i callee arguments = .invoked label method values) :
    ∀ c ∈ label.toList, isLabelChar c = true := by
  have htarget := (target_of_invoked h).1
  cases callee with
  | direct name => cases htarget
  | core name =>
    rw [Callee.target] at htarget
    split at htarget
    · obtain ⟨rfl, -⟩ := Interpreter.Target.mk.inj (Except.ok.inj htarget)
      rw [String.toList_append]
      exact List.forall_mem_append.mpr ⟨List.all_eq_true.mp rfl,
        isLabelChar_of_isName (hnames name List.mem_cons_self)⟩
    · cases htarget
  | object x name =>
    rw [Callee.target] at htarget
    split at htarget
    · cases htarget
    · split at htarget
      · obtain ⟨rfl, -⟩ := Interpreter.Target.mk.inj (Except.ok.inj htarget)
        rw [Callee.names, List.forall_mem_cons, List.forall_mem_singleton] at hnames
        rw [String.toList_append, String.toList_append]
        exact List.forall_mem_append.mpr ⟨List.forall_mem_append.mpr
          ⟨isLabelChar_of_isName hnames.1, List.all_eq_true.mp rfl⟩,
          isLabelChar_of_isName hnames.2⟩
      · cases htarget

end Calling

/-- Every call of a history is the call of a statement, as the verdict says. -/
theorem History.exists_verdict {nodes : List Node} {calls : List Dispatch} {ending : Ending}
    (h : History invoke i s nodes calls ending t) :
    ∀ d ∈ calls, ∃ node ∈ nodes, ∃ callee arguments u, Calling.Reads node callee arguments ∧
      Calling.verdict u i callee arguments = .invoked d.label d.method d.arguments := by
  induction h with
  | finished s => exact fun d hd => absurd hd List.not_mem_nil
  | refused hreads hverdict => exact fun d hd => absurd hd List.not_mem_nil
  | unwritten hreads hverdict => exact fun d hd => absurd hd List.not_mem_nil
  | raised hreads hverdict hraises =>
    refine List.forall_mem_singleton.mpr ?_
    exact ⟨_, List.mem_cons_self, _, _, _, hreads, hverdict⟩
  | answered hreads hverdict hanswers hrest ih =>
    refine List.forall_mem_cons.mpr ⟨⟨_, List.mem_cons_self, _, _, _, hreads, hverdict⟩, ?_⟩
    intro d hd
    obtain ⟨node, hnode, hcall⟩ := ih d hd
    exact ⟨node, List.mem_cons_of_mem _ hnode, hcall⟩

/-! ## Calls of a program -/

/-- **A call that a program makes**: the program is parsed from tokens, and the call is in a history
of it, from any session and with any way to invoke methods. -/
def Dispatch.MadeBy (ts : List Token) (d : Dispatch) : Prop :=
  ∃ program invoke i s calls ending t, parse ts = .ok program ∧
    History invoke i s program.children calls ending t ∧ d ∈ calls

/-- The label of a call that a program makes ends at the first parenthesis. -/
theorem Dispatch.MadeBy.isLabelChar {ts : List Token} {d : Dispatch} (hd : d.MadeBy ts)
    (hnames : ∀ t ∈ ts, t.kind = .identifier →
      ∃ x, t.value.text? = some x ∧ Registry.isName x.toList = true) :
    ∀ c ∈ d.label.toList, isLabelChar c = true := by
  obtain ⟨program, invoke, i, s, calls, ending, t, hparse, hhistory, hd⟩ := hd
  obtain ⟨node, hnode, callee, arguments, u, hreads, hverdict⟩ := hhistory.exists_verdict d hd
  obtain ⟨statements, ⟨-, hstatements⟩, rfl⟩ := parse_eq_ok_iff.mp hparse
  obtain ⟨x, hx, hnode⟩ := List.mem_filterMap.mp hnode
  refine Calling.isLabelChar_of_verdict ?_ hverdict
  intro name hname
  obtain ⟨token, htoken, hkind, htext⟩ := Calling.exists_token_of_reads hnode hreads name hname
  have hmem : token ∈ beforeEnd ts := by
    rw [← hstatements]
    exact List.mem_flatMap.mpr ⟨x, hx, htoken⟩
  -- the token of the name is one of those that were parsed, so it holds a name
  obtain ⟨name', htext', hname'⟩ := hnames token ((List.takeWhile_sublist _).mem hmem) hkind
  obtain rfl := Option.some.inj (htext.symm.trans htext')
  exact hname'

/-- The trace of a call whose arguments are data shows their data forms. -/
theorem exists_shows_of_traceMessage {label message : String} {values : List Value}
    (hplain : ∀ v ∈ values, v.Plain)
    (h : Interpreter.traceMessage s label values = .ok message) :
    ∃ shown, List.Forall₂ Value.Shows values shown ∧
      message.toList = "Calling ".toList
        ++ (label.toList ++ '(' :: ((Text.joinWith ", " shown).toList ++ ')' :: [])) := by
  obtain ⟨shown, hshown, rfl⟩ := map_eq_ok_iff.mp h
  have hrendered := (List.forall₂_and_left _ _).mpr ⟨hplain, mapM_eq_ok_iff.mp hshown⟩
  refine ⟨shown, hrendered.imp fun v a hv => hv.1.shows_of_render s.shortNames hv.2, ?_⟩
  simp only [String.toList_append, List.append_assoc]
  rfl

/-- **The trace of a call tells the call.** Let two programs be parsed from tokens in which
identifiers hold names, and let each make a call. A call has a trace exactly if its arguments can be
written. If the arguments of both are data and the traces are equal, then so are the labels and the
arguments.

A value that holds anything but data, at any depth of lists and dictionaries, has no data form, and
is displayed as a whole. -/
theorem trace_tells_call (ts ts' : List Token)
    (hnames : ∀ t ∈ ts, t.kind = .identifier →
      ∃ x, t.value.text? = some x ∧ Registry.isName x.toList = true)
    (hnames' : ∀ t ∈ ts', t.kind = .identifier →
      ∃ x, t.value.text? = some x ∧ Registry.isName x.toList = true)
    (d d' : Dispatch) (hd : d.MadeBy ts) (hd' : d'.MadeBy ts') :
    ((∃ message, Interpreter.traceMessage d.session d.label d.arguments = .ok message) ↔
      ∀ v ∈ d.arguments, v.isWritable = true) ∧
    ((∀ v ∈ d.arguments, v.Plain) → (∀ v ∈ d'.arguments, v.Plain) →
      ∀ message, Interpreter.traceMessage d.session d.label d.arguments = .ok message →
        Interpreter.traceMessage d'.session d'.label d'.arguments = .ok message →
        d.label = d'.label ∧ List.Forall₂ Value.Same d.arguments d'.arguments) ∧
    ∀ v ∈ d.arguments, v.HoldsForeign → (∀ a, v.data ≠ .ok a) ∧
      v.render d.session.methodsOf = v.display d.session.methodsOf := by
  refine ⟨Interpreter.exists_traceMessage_iff .., fun hplain hplain' message h h' => ?_,
    fun v _ hv => ⟨hv.data_ne_ok, hv.render_eq _⟩⟩
  obtain ⟨shown, hshown, htrace⟩ := exists_shows_of_traceMessage hplain h
  obtain ⟨shown', hshown', htrace'⟩ := exists_shows_of_traceMessage hplain' h'
  have hopening : ∀ rest : List Char, ∀ c ∈ ('(' :: rest).head?, isLabelChar c = false := by
    intro rest c hc
    obtain rfl := Option.some.inj hc
    rfl
  -- the labels end at the first parenthesis, and behind it each trace has a sequence of data
  obtain ⟨hlabel, harguments⟩ := append_inj_of_class (hd.isLabelChar hnames)
    (hd'.isLabelChar hnames') (hopening _) (hopening _)
    (List.append_cancel_left (htrace.symm.trans htrace'))
  obtain ⟨hsame, -⟩ := Data.forall₂_of_joinWith rfl (by decide) (fun x a hx => hx.opens rfl) hshown
    hshown' (fun v hv => (hplain v hv).tells) (List.cons.inj harguments).2
  exact ⟨String.toList_inj.mp hlabel, hsame⟩

/-- A call on the core of a name and of a text that looks like the end of a list, in the second
line of a source text. -/
def savingCall (x : String) : Statement :=
  .coreCall ⟨⟨.core, .text "core", .int 2, .int 1⟩, rfl⟩ ⟨⟨.dot, .null, .int 2, .int 5⟩, rfl⟩
    ⟨⟨.identifier, .text "save", .int 2, .int 6⟩, rfl⟩
    { opening := ⟨⟨.leftParen, .null, .int 2, .int 10⟩, rfl⟩
      arguments := .some (.identifier ⟨⟨.identifier, .text x, .int 2, .int 11⟩, rfl⟩)
        (.next ⟨⟨.comma, .null, .int 2, .int 12⟩, rfl⟩
          (.string ⟨⟨.string, .text "], 2)", .int 2, .int 14⟩, rfl⟩) .done)
      closing := ⟨⟨.rightParen, .null, .int 2, .int 21⟩, rfl⟩
      semicolon := ⟨⟨.semicolon, .null, .int 2, .int 22⟩, rfl⟩ }

/-- The tokens of such a call. -/
def savingTokens (x : String) : List Token :=
  (savingCall x).tokens ++ [⟨.endOfInput, .null, .int 2, .int 23⟩]

/-- A session in which a name is bound. -/
def savingSession (x : String) (v : Value) : Session where
  registries := [Registry.enter {} ⟨.text "save", rfl⟩ (.method ⟨0, "save", false, none⟩) rfl .null]
  interpreters := [{ core := 0, bindings := .ofList [(.text x, v)] }]
  logger := { level := 20, handlers := 1, propagate := false }

/-- What such a call comes to. -/
def savingDispatch (x : String) (v : Value) : Dispatch :=
  .traced 0 (savingSession x v) "core.save" (.method ⟨0, "save", false, none⟩) [v, .text "], 2)"]

theorem savingDispatch_madeBy {x : String} {v : Value}
    (hx : ((savingSession x v).interpreter 0).bindings.get? (.text x) = some v)
    (hwritable : v.isWritable = true) : (savingDispatch x v).MadeBy (savingTokens x) := by
  have hend : ∃ t ∈ savingTokens x, isEnd t = true :=
    ⟨_, List.mem_append_right _ List.mem_cons_self, rfl⟩
  have hparse := parse_eq_ok_iff.mpr ⟨[savingCall x], ⟨hend, rfl⟩, rfl⟩
  have hreads : Calling.Reads ((savingCall x).node?.get rfl) (.core "save")
      [.name x, .literal (.text "], 2)")] :=
    .core rfl (.cons (.name rfl) (.cons (.string _) .nil))
  have hvalues : [Calling.Argument.name x, .literal (.text "], 2)")].map
      (·.value ((savingSession x v).interpreter 0).bindings) = [v, .text "], 2)"] := by
    rw [List.map_cons, Calling.Argument.value, hx]
    rfl
  have hwritten : ∀ w ∈ [v, .text "], 2)"], w.isWritable = true :=
    List.forall_mem_cons.mpr ⟨hwritable, List.forall_mem_singleton.mpr rfl⟩
  obtain ⟨message, hmessage⟩ :=
    (Interpreter.exists_traceMessage_iff (savingSession x v) "core.save" _).mpr hwritten
  have hverdict : Calling.verdict (savingSession x v) 0 (.core "save")
      [.name x, .literal (.text "], 2)")]
        = .invoked "core.save" (.method ⟨0, "save", false, none⟩) [v, .text "], 2)"] := by
    show Calling.Verdict.ofTarget (savingSession x v) 0 (List.map _ _)
      (.ok ⟨"core.save", .method ⟨0, "save", false, none⟩⟩) = _
    rw [hvalues]
    obtain ⟨e, he⟩ | hinvoked := Calling.Verdict.ofTarget_ok (savingSession x v) 0
      [v, .text "], 2)"] ⟨"core.save", .method ⟨0, "save", false, none⟩⟩
    · cases (Calling.Verdict.traceMessage_of_unwritten he).symm.trans hmessage
    · exact hinvoked
  exact ⟨_, fun _ _ => pure .null, 0, savingSession x v, _, _, _, hparse,
    .answered hreads hverdict rfl (.finished _), List.mem_cons_self⟩

/-- A dictionary with a list that ends in a value; its key is a name or a text. -/
def savedValue (text : String → Scalar) (last : Value) : Value :=
  .dict [(text "k", .list [.int 1, .scalar (text "a, b"), last])]

theorem plain_savedValue {text : String → Scalar} (htext : ∀ x, (text x).text? = some x)
    {last : Value} (hlast : last.Plain) :
    ∀ v ∈ [savedValue text last, .text "], 2)"], v.Plain := by
  refine List.forall_mem_cons.mpr ⟨?_, List.forall_mem_singleton.mpr (.scalar _)⟩
  refine .dict (List.forall_mem_singleton.mpr ⟨"k", htext "k"⟩) (List.forall_mem_singleton.mpr ?_)
  refine .list (List.forall_mem_cons.mpr ⟨.scalar _, ?_⟩)
  exact List.forall_mem_cons.mpr ⟨.scalar _, List.forall_mem_singleton.mpr hlast⟩

theorem isLong_one : Value.isLong (.int 1) = false := by decide +kernel

theorem isWritable_savedValue {text : String → Scalar} (htext : ∀ x, (text x).text? = some x)
    {last : Value} (hlast : last.isWritable = true) : (savedValue text last).isWritable = true := by
  simp [savedValue, Value.isWritable, Value.isWritableAll, Value.isWritableEntries, isLong_one,
    Value.isLong_of_text (htext _), hlast]

/-- The trace of a call with such a value shows no difference between a name and a text. -/
theorem traceMessage_savedValue (s : Session) {text : String → Scalar}
    (htext : text = .text ∨ text = .unresolved) :
    Interpreter.traceMessage s "core.save" [savedValue text .null, .text "], 2)"]
      = .ok "Calling core.save(\x7b\"k\": [1, \"a, b\", null]\x7d, \"], 2)\")" := by
  have hrender : (savedValue text .null).render s.methodsOf
      = .ok "\x7b\"k\": [1, \"a, b\", null]\x7d" := by
    obtain rfl | rfl := htext <;>
    · simp only [Value.render, savedValue, Value.data, Value.dataEntries, Value.dataAll,
        Value.written_of_short isLong_one]
      rfl
  rw [Interpreter.traceMessage, List.mapM_cons, hrender]
  rfl

theorem display_savedValue (methodsOf : Nat → List Scalar) :
    (savedValue .text .undefined).display methodsOf
      = .ok "\x7b'k': [1, 'a, b', UNDEFINED]\x7d" := by
  simp only [savedValue, Value.display, Value.displayEntries, Value.displayAll,
    Value.written_of_short isLong_one]
  refine congrArg Except.ok (show Value.bracketed "\x7b" [Text.display "k" ++ ": "
    ++ Value.bracketed "[" [toString (1 : Int), Text.display "a, b", "UNDEFINED"] "]"] "\x7d" = _
    from ?_)
  decide +kernel

/-- Two calls that have one trace, and one whose argument holds what is no data. -/
theorem trace_tells_savedValue :
    (savingDispatch "x" (savedValue .text .null)).MadeBy (savingTokens "x") ∧
    (savingDispatch "y" (savedValue .unresolved .null)).MadeBy (savingTokens "y") ∧
    (savingDispatch "x" (savedValue .text .undefined)).MadeBy (savingTokens "x") ∧
    List.Forall₂ Value.Same [savedValue .text .null, .text "], 2)"]
      [savedValue .unresolved .null, .text "], 2)"] ∧
    (savedValue .text .undefined).render
      (savingDispatch "x" (savedValue .text .undefined)).session.methodsOf
        = .ok "\x7b'k': [1, 'a, b', UNDEFINED]\x7d" := by
  have hx : (savingDispatch "x" (savedValue .text .null)).MadeBy (savingTokens "x") :=
    savingDispatch_madeBy rfl (isWritable_savedValue (fun _ => rfl) rfl)
  have hy : (savingDispatch "y" (savedValue .unresolved .null)).MadeBy (savingTokens "y") :=
    savingDispatch_madeBy rfl (isWritable_savedValue (fun _ => rfl) rfl)
  have hforeign : (savingDispatch "x" (savedValue .text .undefined)).MadeBy (savingTokens "x") :=
    savingDispatch_madeBy rfl (isWritable_savedValue (fun _ => rfl) rfl)
  have hnames : ∀ x : String, Registry.isName x.toList = true → ∀ t ∈ savingTokens x,
      t.kind = .identifier → ∃ x, t.value.text? = some x ∧ Registry.isName x.toList = true := by
    intro x hx
    have hsave : Registry.isName ['s', 'a', 'v', 'e'] = true := by decide
    simp [savingTokens, savingCall, Statement.tokens, Tail.tokens, Items.tokens, More.tokens,
      Expression.tokens, Value.text?, Scalar.text?, hx, hsave]
  have hundefined : (savedValue .text .undefined).HoldsForeign :=
    .entry List.mem_cons_self (.item (List.mem_append_right [_, _] List.mem_cons_self) (.here rfl))
  refine ⟨hx, hy, hforeign, ?_, ?_⟩
  · obtain ⟨-, htells, -⟩ :=
      trace_tells_call _ _ (hnames "x" (by decide)) (hnames "y" (by decide)) _ _ hx hy
    exact (htells (plain_savedValue (fun _ => rfl) (.scalar _))
      (plain_savedValue (fun _ => rfl) (.scalar _)) _ (traceMessage_savedValue _ (.inl rfl))
      (traceMessage_savedValue _ (.inr rfl))).2
  · obtain ⟨-, -, hshows⟩ :=
      trace_tells_call _ _ (hnames "x" (by decide)) (hnames "x" (by decide)) _ _ hforeign hforeign
    rw [(hshows _ List.mem_cons_self hundefined).2, display_savedValue]

end CallScript
