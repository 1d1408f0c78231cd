import CallScript.Proofs.Agreement

/-!
# Running one source text after another

A program, a line break and a second text run as the program and then the text, as far as anything
but the log can tell. Reading is the subject of `SourceConcatenation`; what is left is running.

Apart from the log, executing a source is evaluating its statements in the interpreter of the runner
(`agrees_execute`). Evaluating two lists of statements is evaluating one after the other
(`evaluateAll_append`), and reporting what either raises is reporting each
(`Action.reporting_bind`), which gives `agrees_run`.

The second source is run by the same runner after whatever the methods called by the first did. It
is the interpreter of the first run again, because a tame host leaves a runner its interpreter.
-/

namespace CallScript

open Grammar LexicalGrammar CallScript.Action

/-! ## Running -/

theorem Interpreter.evaluateAll_append (invoke : Invoke) (j : Nat) (xs ys : List Node) :
    evaluateAll invoke j (xs ++ ys) = do
      let vs ← evaluateAll invoke j xs
      let ws ← evaluateAll invoke j ys
      return vs ++ ws := by
  induction xs with
  | nil => simp [evaluateAll]
  | cons x xs ih =>
    simp only [List.cons_append, evaluateAll, ih, bind_assoc, pure_bind]

namespace Runner

variable {invoke : Invoke} {r i : Nat}

/-- **Apart from the log, executing a source is evaluating its statements** in the interpreter that
the runner drives. -/
theorem agrees_execute (hinvoke : ∀ v arguments, Blind r i (invoke v arguments)) {source : String}
    {program : Node} (h : parseSource source = .ok program) :
    Agrees r i (execute invoke r source)
      (Interpreter.evaluateAll invoke i program.children >>= fun _ => pure ()) := by
  obtain ⟨text, htext⟩ := exists_text_of_parseSource h
  unfold parseSource at h
  unfold execute
  cases htokens : tokenize source with
  | error e => rw [htokens] at h; cases h
  | ok tokens =>
    rw [htokens] at h
    have hparse : parse tokens = .ok program := h
    rw [show ofExcept (.ok tokens) = pure tokens from rfl, pure_bind]
    refine (agrees_dumpTokens r tokens).skip ?_
    rw [hparse, show ofExcept (.ok program) = pure program from rfl, pure_bind]
    refine (agrees_dumpTree r htext).skip ?_
    exact agrees_driven (F := fun j => Interpreter.interpret invoke j program)
      (Interpreter.agrees_interpret hinvoke i program)

/-- **Running a program, a line break and a second program agrees with running one after the
other.** -/
theorem agrees_run (hinvoke : ∀ v arguments, Blind r i (invoke v arguments)) {a b : String}
    {first second : Node} (ha : parseSource a = .ok first) (hb : parseSource b = .ok second)
    (hab : parseSource (a ++ "\n" ++ b)
      = .ok ⟨.program, .null, first.children ++ second.children⟩) :
    Agrees r i (run invoke r (a ++ "\n" ++ b)) (do run invoke r a; run invoke r b) := by
  have hboth := (agrees_execute hinvoke ha).bind fun _ => agrees_execute hinvoke hb
  have hwhole := agrees_execute hinvoke hab
  rw [Interpreter.evaluateAll_append] at hwhole
  simp only [bind_assoc, pure_bind] at hboth hwhole
  -- both come down to the statements of the first and then those of the second
  have hreported := (hwhole.trans hboth.symm).reporting blind_logFailure
  rwa [reporting_bind] at hreported

end Runner

/-! ## The whole way from text to effects -/

/-- **Running is compositional in the source text.** Let `a` be a source that is read into a tree.
With a line break and a source `b` behind it, it is read into a tree exactly if `b` is. The
statements are then those of `a` followed by those of `b`; otherwise the error is that of `b`, as
many lines further down as `a` and the line break take. And if `b` is read into a tree too, then for
every tame host and every session running the whole does the same as running `a` and then, if that
succeeded, `b`: it answers or raises alike, and leaves the same session but for the log. -/
theorem run_append_lineBreak (a b : String) (first : Node) (ha : parseSource a = .ok first) :
    (∀ second, parseSource b = .ok second →
      parseSource (a ++ "\n" ++ b)
        = .ok ⟨.program, .null, first.children ++ second.children⟩) ∧
    (∀ e, parseSource b = .error e →
      ∃ line : Int, e.line = .int line ∧
        parseSource (a ++ "\n" ++ b)
          = .error { e with line := .int (line + (1 + a.toList.count '\n' : Nat)) }) ∧
    ∀ second, parseSource b = .ok second →
      ∀ host : Host, host.Tame → ∀ (depth r : Nat) (s : Session), r < s.runners.length →
        let invoke := host.invoke depth
        let whole := (Runner.run invoke r (a ++ "\n" ++ b)).perform s
        let parts := (do Runner.run invoke r a; Runner.run invoke r b : Action Unit).perform s
        whole.1 = parts.1 ∧ whole.2.unlogged = parts.2.unlogged := by
  obtain ⟨f, d, htokens, rfl⟩ := exists_program_of_parseSource ha
  have hread := parseSource_append htokens b
  refine ⟨fun second hb => ?_, fun e hb => ?_, fun second hb host hhost depth r s hr => ?_⟩
  · rw [hread, hb]
    rfl
  · obtain ⟨line, hline⟩ := exists_line_of_parseSource hb
    refine ⟨line, hline, ?_⟩
    rw [hread, hb]
    simp [ScriptError.movedDown, hline, Value.movedDown]
  · rw [hb] at hread
    have hdrives : s.Alike r (s.runner r).interpreter s := by
      refine ⟨rfl, ?_⟩
      simp [Session.runner, hr]
    obtain ⟨hresult, hstate⟩ :=
      Runner.agrees_run (fun v arguments => hhost.blind_invoke depth v arguments) ha hb hread s s
        hdrives
    exact ⟨hresult, hstate.unlogged⟩

/-- The program of one core call with one argument, whose closing parenthesis stands at a place. -/
def coreCallProgram (method : String) (argument : Expression) (line column : Int) : Program :=
  [.coreCall ⟨⟨.core, .text "core", .int 1, .int 1⟩, rfl⟩ ⟨⟨.dot, .null, .int 1, .int 5⟩, rfl⟩
    ⟨⟨.identifier, .text method, .int 1, .int 6⟩, rfl⟩
    { opening := ⟨⟨.leftParen, .null, .int 1, .int 10⟩, rfl⟩
      arguments := .some argument .done
      closing := ⟨⟨.rightParen, .null, .int line, .int column⟩, rfl⟩
      semicolon := ⟨⟨.semicolon, .null, .int line, .int (column + 1)⟩, rfl⟩ }]

/-- A source that keeps a text of two lines and ends inside a comment. -/
def keepText : String := "core.keep(\"two\nlines\"); // no line break"

/-- A source that shows what is kept. -/
def showText : String := "core.show(x);"

/-- The program that `keepText` is. -/
def keepProgram : Program :=
  coreCallProgram "keep" (.string ⟨⟨.string, .text "two\nlines", .int 1, .int 11⟩, rfl⟩) 2 7

/-- The program that `showText` is. -/
def showProgram : Program :=
  coreCallProgram "show" (.identifier ⟨⟨.identifier, .text "x", .int 1, .int 11⟩, rfl⟩) 1 12

/-- A host with a method that binds `x` to what it is given, and others that do away with the core
method `show` and raise an error. -/
def keepingHost : Host := Host.ofProcedures fun m arguments =>
  if m.label = "keep" then
    .perform (.bind 0 (.text "x") (arguments.headD .null)) fun _ => .answer .null
  else
    .perform (.remove 0 (.text "show")) fun _ => .raise (.script Interpreter.incompleteCall)

/-- A session with a runner for such methods. -/
def keepingSession : Session where
  registries :=
    [(Registry.enter {} ⟨.text "keep", rfl⟩ (.method ⟨0, "keep", false, none⟩) rfl .null).enter
      ⟨.text "show", rfl⟩ (.method ⟨1, "show", false, none⟩) rfl .null]
  interpreters := [{ core := 0 }]
  runners := [{ settings := {}, interpreter := 0 }]

theorem parseSource_keepText : parseSource keepText = .ok keepProgram.node := by
  have htokens : tokenize keepText
      = .ok (keepProgram.tokens ++ [Lexer.endToken ⟨2, 26⟩]) := by cbv
  exact parseSource_of_tokens ⟨_, rfl⟩ htokens

theorem parseSource_showText : parseSource showText = .ok showProgram.node := by
  have htokens : tokenize showText
      = .ok (showProgram.tokens ++ [Lexer.endToken ⟨1, 14⟩]) := by cbv
  exact parseSource_of_tokens ⟨_, rfl⟩ htokens

/-- Keeping and showing in one run or in two. -/
theorem keepText_lineBreak_showText :
    parseSource keepText = .ok keepProgram.node ∧ parseSource showText = .ok showProgram.node ∧
    keepingHost.Tame ∧
    parseSource (keepText ++ "\n" ++ showText)
      = .ok ⟨.program, .null, keepProgram.nodes ++ showProgram.nodes⟩ ∧
    let invoke := keepingHost.invoke 3
    let whole := (Runner.run invoke 0 (keepText ++ "\n" ++ showText)).perform keepingSession
    let parts := (do
      Runner.run invoke 0 keepText
      Runner.run invoke 0 showText : Action Unit).perform keepingSession
    whole.1 = parts.1 ∧ whole.2.unlogged = parts.2.unlogged := by
  have hhost : keepingHost.Tame := Host.tame_ofProcedures _
  obtain ⟨hread, -, hrun⟩ :=
    run_append_lineBreak keepText showText keepProgram.node parseSource_keepText
  exact ⟨parseSource_keepText, parseSource_showText, hhost, hread _ parseSource_showText,
    hrun _ parseSource_showText keepingHost hhost 3 0 keepingSession (by decide)⟩

end CallScript
