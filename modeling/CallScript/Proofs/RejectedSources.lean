import CallScript.Proofs.Agreement
import CallScript.Proofs.SingleLine

/-!
# A source text with an error runs nothing

A runner lexes the whole of a source text, then parses the whole of it, and only then interprets it.
So an error in it, however late, comes before anything is invoked or changed: the session is the one
before, but for the log, and the methods of the embedding program make no difference
(`Runner.perform_run_of_error`).

The runner logs the first line of the text of what was raised. For an error of a source text that
line holds the place, the code and the message in full, since none of them breaks a line
(`ScriptError.Located.brief`).
-/

namespace CallScript

open CallScript.Action

variable {invoke : Invoke} {r : Nat} {source : String} {s : Session}

theorem Logger.inFamily_runner : inFamily runner = true := by decide

theorem Logger.inFamily_interpreter : inFamily interpreter = true := by decide

namespace Session

theorem logIf_of_not_truthy {flag : Value} (h : s.truthy flag = false) (rs : List Record) :
    s.logIf flag rs = s := by
  rw [logIf, h]
  rfl

/-- A session in which the records of a level are let through, and those above it. -/
def Logs (level : Nat) (s : Session) : Prop := s.logger.effectiveLevel ≤ level

instance (level : Nat) (s : Session) : Decidable (s.Logs level) :=
  inferInstanceAs (Decidable (_ ≤ _))

theorem Logs.copies_eq {level : Nat} (h : s.Logs level) {x : Record} (hlevel : level ≤ x.level)
    (hfamily : Logger.inFamily x.logger = true) :
    s.logger.copies x = List.replicate s.logger.outlets x := by
  have hpositive : 0 < s.logger.effectiveLevel := by
    unfold Logger.effectiveLevel
    split <;> omega
  have hle : s.logger.effectiveLevel ≤ level := h
  have hpasses : s.logger.passes x = true := by
    simp only [Logger.passes, hfamily, Bool.and_eq_true, decide_eq_true_eq, true_and]
    exact ⟨by omega, by omega⟩
  rw [Logger.copies, if_pos hpasses]

/-- **A record that is let through is handled once by every handler that it reaches.** -/
theorem Logs.log_eq {level : Nat} (h : s.Logs level) {x : Record} (hlevel : level ≤ x.level)
    (hfamily : Logger.inFamily x.logger = true) :
    s.log x = { s with records := s.records ++ List.replicate s.logger.outlets x } := by
  rw [log, h.copies_eq hlevel hfamily]

theorem Logs.relog {level : Nat} (h : s.Logs level) (records : List Record) :
    Logs level { s with records := records } := h

end Session

namespace Runner

/-- The dumps of the tokens of a source text, none if it has no tokens. -/
def sourceRecords (s : Session) (source : String) : List Record :=
  match tokenize source with
  | .ok tokens => tokens.dropLast.flatMap (tokenRecords s)
  | .error _ => []

/-- Reading a source text with an error raises that error, after the tokens were dumped. -/
theorem perform_execute_of_error {e : ScriptError} (h : parseSource source = .error e) :
    (execute invoke r source).perform s = (.error (.script e),
      s.logIf (s.runner r).settings.debug (sourceRecords s source)) := by
  unfold execute sourceRecords
  rw [parseSource] at h
  cases htokens : tokenize source with
  | error e' =>
    rw [htokens] at h
    obtain rfl := Except.error.inj h
    dsimp only
    rw [Session.logIf_eq, List.flatMap_nil, ite_self, List.append_nil]
    rfl
  | ok tokens =>
    rw [htokens] at h
    rw [show ofExcept (.ok tokens) = pure tokens from rfl, pure_bind, perform_bind,
      perform_dumpTokens]
    dsimp only
    rw [show parse tokens = .error e from h]
    rfl

/-- **What a runner reports**: the brief form of what was raised, unless it aborts. What has none
raises another error in its place. -/
theorem reported_logFailure (e : Raised) (s : Session) :
    reported logFailure e s = match e.isReported, e.brief s.methodsOf with
      | true, .ok brief => (e, s.log ⟨40, Logger.runner, "Execution error: " ++ brief⟩)
      | true, .error e' => (.foreign e', s)
      | false, _ => (e, s) := by
  unfold reported logFailure
  cases e.isReported with
  | false => rfl
  | true =>
    rw [perform_bind, perform_get]
    dsimp only
    rw [perform_bind]
    cases e.brief s.methodsOf <;> rfl

/-- The record of an error at a place in a source text. -/
def errorRecord (line column : Int) (kind : ErrorKind) (message : String) : Record :=
  ⟨40, Logger.runner, "Execution error: Line " ++ toString line ++ ":" ++ toString column ++ " | ["
    ++ kind.code ++ "] " ++ message⟩

theorem unlogged_reported (e : Raised) (s : Session) :
    (reported logFailure e s).2.unlogged = s.unlogged := by
  rw [reported_logFailure]
  split
  · exact s.unlogged_log _
  · rfl
  · rfl

/-- An error at a place in a source text is reported in full, if the place can be written. -/
theorem reported_located {e : ScriptError} {line column : Int} {message : String}
    (h : e.Located line column message) (hline : Value.isLong (.int line) = false)
    (hcolumn : Value.isLong (.int column) = false) (s : Session) :
    reported logFailure (.script e) s
      = (.script e, s.log (errorRecord line column e.kind message)) := by
  rw [reported_logFailure, show Raised.brief s.methodsOf (.script e) = e.brief s.methodsOf from rfl,
    h.brief hline hcolumn s.shortNames]
  unfold errorRecord
  show (Raised.script e, s.log ⟨40, Logger.runner, "Execution error: " ++ ("Line " ++ toString line
    ++ ":" ++ toString column ++ " | [" ++ e.kind.code ++ "] " ++ message)⟩) = _
  simp only [← String.append_assoc]
  rfl

/-- **Running a source text with an error** reports that error, whatever the methods of the
embedding program are, and does nothing else. -/
theorem perform_run_of_error {e : ScriptError} (h : parseSource source = .error e) :
    (run invoke r source).perform s =
      let report := reported logFailure (.script e)
        (s.logIf (s.runner r).settings.debug (sourceRecords s source))
      (.error report.1, report.2) := by
  rw [run, perform_reporting, perform_execute_of_error h]

theorem unlogged_run_of_error {e : ScriptError} (h : parseSource source = .error e) :
    ((run invoke r source).perform s).2.unlogged = s.unlogged := by
  rw [perform_run_of_error h, unlogged_reported, Session.unlogged_logIf]

end Runner

/-- **A source text with an error runs nothing.** If running a source text changes anything in the
session beyond the log, or depends on what the methods of the embedding program do, then the source
text is a program. If it is none, then the run leaves all but the log as it was, and does the same
whatever the methods are. It raises the error of reading the source text, and without dumps all that
it logs is one record, with the place, the code and the message of the error. The latter is so for
all source texts but those of absurd size, in which a place cannot be written because its numbers
have more than thousands of digits. -/
theorem rejected_source_runs_nothing (invoke : Invoke) (r : Nat) (source : String) (s : Session) :
    ((((Runner.run invoke r source).perform s).2.unlogged ≠ s.unlogged ∨
        ∃ other : Invoke, (Runner.run other r source).perform s
          ≠ (Runner.run invoke r source).perform s) →
      ∃ program, parseSource source = .ok program) ∧
    ∀ e, parseSource source = .error e →
      ((Runner.run invoke r source).perform s).2.unlogged = s.unlogged ∧
      (∀ other : Invoke, (Runner.run other r source).perform s
        = (Runner.run invoke r source).perform s) ∧
      ∃ (line column : Int) (message : String),
        e.line = .int line ∧ e.column = .int column ∧ e.code = .text e.kind.code ∧
        e.message = .text message ∧
        (source.length + 1 < 10 ^ Value.digitLimit →
          ((Runner.run invoke r source).perform s).1 = .error (.script e) ∧
          (s.truthy (s.runner r).settings.debug = false →
            ((Runner.run invoke r source).perform s).2
              = s.log (Runner.errorRecord line column e.kind message)) ∧
          (s.truthy (s.runner r).settings.debug = false → s.Logs 40 →
            ((Runner.run invoke r source).perform s).2.records
              = s.records ++ List.replicate s.logger.outlets
                  (Runner.errorRecord line column e.kind message))) := by
  -- a source text that is rejected gives methods no chance to matter
  have hsame : ∀ e, parseSource source = .error e → ∀ other : Invoke,
      (Runner.run other r source).perform s = (Runner.run invoke r source).perform s :=
    fun e he other => (Runner.perform_run_of_error he).trans (Runner.perform_run_of_error he).symm
  constructor
  · intro h
    cases hparse : parseSource source with
    | ok program => exact ⟨program, rfl⟩
    | error e =>
      obtain h | ⟨other, hother⟩ := h
      · exact absurd (Runner.unlogged_run_of_error hparse) h
      · exact absurd (hsame e hparse other) hother
  · intro e he
    obtain ⟨place, message, hlocated, hline, hcolumn⟩ := exists_located_of_parseSource he
    refine ⟨Runner.unlogged_run_of_error he, hsame e he, place.line, place.column, message,
      hlocated.line, hlocated.column, hlocated.code, hlocated.wording, fun hsize => ?_⟩
    have hrun : (Runner.run invoke r source).perform s = (.error (.script e),
        (s.logIf (s.runner r).settings.debug (Runner.sourceRecords s source)).log
          (Runner.errorRecord place.line place.column e.kind message)) := by
      rw [Runner.perform_run_of_error he, Runner.reported_located hlocated
        (Value.isLong_of_lt (hline.trans_lt hsize)) (Value.isLong_of_lt (hcolumn.trans_lt hsize))]
    refine ⟨by rw [hrun], fun hdebug => ?_, fun hdebug hlogs => ?_⟩
    · rw [hrun, Session.logIf_of_not_truthy hdebug]
    · rw [hrun, Session.logIf_of_not_truthy hdebug,
        hlogs.log_eq (le_refl (40 : Int)) Logger.inFamily_runner]

/-- A source text with an error in its second statement. -/
def lateComma : String := "core.say();\ncore.say(x, y);"

/-- The error of that source text. -/
def lateCommaError : ScriptError :=
  Lexer.unexpectedCharacter "," (.int 2) (.int 11)

/-- A session with a core method to call, in which the calls of a script would be logged. -/
def sayingSession : Session where
  registries := [Registry.enter {} ⟨.text "say", rfl⟩ (.method ⟨0, "say", false, none⟩) rfl .null]
  interpreters := [{ core := 0 }]
  runners := [{ settings := {}, interpreter := 0 }]
  logger := { level := 20, handlers := 1, propagate := false }

/-- A late error runs nothing of what comes before it, and is logged in one record. -/
theorem lateComma_runs_nothing :
    parseSource lateComma = .error lateCommaError ∧
    lateComma.length + 1 < 10 ^ Value.digitLimit ∧
    sayingSession.truthy (sayingSession.runner 0).settings.debug = false ∧
    sayingSession.Logs 40 ∧
    ∀ invoke : Invoke,
      ((Runner.run invoke 0 lateComma).perform sayingSession).1 = .error (.script lateCommaError) ∧
      ((Runner.run invoke 0 lateComma).perform sayingSession).2.unlogged = sayingSession ∧
      ((Runner.run invoke 0 lateComma).perform sayingSession).2.records = [⟨40, Logger.runner,
        "Execution error: Line 2:11 | [UNEXPECTED_CHARACTER] Unexpected character: ','"⟩] := by
  have hstop : (Lexer.scan {} lateComma.toList).2 = ⟨⟨2, 11⟩, [',', ' ', 'y', ')', ';']⟩ := by cbv
  have hparse : parseSource lateComma = .error lateCommaError := by
    have htokens : tokenize lateComma = .error lateCommaError := by
      show Lexer.finish _ (Lexer.scan {} lateComma.toList).2 = _
      rw [hstop]
      rfl
    rw [parseSource, htokens]
  have hdisplay : Text.display "," = "','" := by decide +kernel
  have hsize : lateComma.length + 1 < 10 ^ Value.digitLimit := by decide +kernel
  have hdebug : sayingSession.truthy (sayingSession.runner 0).settings.debug = false := rfl
  have hlogs : sayingSession.Logs 40 := by decide
  refine ⟨hparse, hsize, hdebug, hlogs, fun invoke => ?_⟩
  obtain ⟨hunlogged, -, line, column, message, hline, hcolumn, -, hmessage, hreport⟩ :=
    (rejected_source_runs_nothing invoke 0 lateComma sayingSession).2 _ hparse
  obtain ⟨hraised, -, hrecords⟩ := hreport hsize
  obtain rfl := Scalar.int.inj (Value.scalar.inj hline)
  obtain rfl := Scalar.int.inj (Value.scalar.inj hcolumn)
  have hwording :
      lateCommaError.message = .text ("Unexpected character: " ++ Text.display ",") := rfl
  rw [hwording, hdisplay] at hmessage
  obtain rfl := Scalar.text.inj (Value.scalar.inj hmessage)
  refine ⟨hraised, hunlogged, ?_⟩
  rw [hrecords hdebug hlogs]
  rfl

end CallScript
