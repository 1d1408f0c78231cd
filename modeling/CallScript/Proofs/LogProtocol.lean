import CallScript.Proofs.RejectedSources
import CallScript.Proofs.StatementOutcomes

/-!
# What a run logs

Let calls be traced, records of information be let through, and dumps be off. If the methods of the
embedding program leave the log alone, then what a run logs is determined by the calls that it makes
and by how it ends.

The calls that a run makes, and how it ends, are told by its *history* (`History`). A call is there
with the session in which its method is invoked, so a history also says what was logged by then. The
history of a script exists (`exists_history`), and by induction along it the log holds one trace for
each call, made before the method is invoked (`History.log`).

How a run ends decides the rest. A run that comes to its end says so. A method that raises is logged
with the label of its call, and then the runner logs whatever was raised, be it by a method, by the
interpreter or by the reader of the source text; what aborts the embedding program is not logged at
all (`Ending.records`). An error whose text cannot be made cannot be logged either; the runner then
raises the error of making its text (`Ending.result`). Errors of the reader have a text, and those
of the interpreter have one exactly if the names that they list are texts
(`Calling.exists_text_iff_of_refused`).
-/

namespace CallScript

open CallScript.Action

variable {α : Type} {invoke : Invoke} {i : Nat} {s t : Session}

/-! ## Methods that leave the log alone -/

/-- **A session with the log of an earlier one**: the same records, the same loggers, and the same
switches for traces. -/
structure Session.SameLog (s t : Session) : Prop where
  records : t.records = s.records
  logger : t.logger = s.logger
  trace : ∀ i < s.interpreters.length,
    i < t.interpreters.length ∧ (t.interpreter i).trace = (s.interpreter i).trace

theorem Session.SameLog.refl (s : Session) : s.SameLog s := ⟨rfl, rfl, fun _ hi => ⟨hi, rfl⟩⟩

theorem Session.SameLog.trans {u : Session} (h : s.SameLog t) (h' : t.SameLog u) : s.SameLog u where
  records := h'.records.trans h.records
  logger := h'.logger.trans h.logger
  trace i hi :=
    have hi' := h.trace i hi
    ⟨(h'.trace i hi'.1).1, (h'.trace i hi'.1).2.trans hi'.2⟩

/-- An action that leaves the log alone. -/
def Action.Quiet (A : Action α) : Prop := ∀ s : Session, s.SameLog (A.perform s).2

namespace Host

/-- **A host whose methods neither log nor change what is logged**, given that what they invoke does
not. -/
def Quiet (host : Host) : Prop :=
  ∀ invoke : Invoke, (∀ v arguments, (invoke v arguments).Quiet) →
    ∀ m arguments, (host invoke m arguments).Quiet

/-- A host whose methods do not invoke any others. -/
def Solitary (host : Host) : Prop :=
  ∀ invoke m arguments s, ((host invoke m arguments).perform s).2.invocations = s.invocations

end Host

/-! ## Histories -/

/-- **A call that a script makes.** -/
structure Dispatch where
  label : String
  method : Value
  arguments : List Value
  /-- The session in which the method is invoked. -/
  session : Session

namespace Dispatch

/-- The call of a method from a session, in which it is traced first. -/
def traced (i : Nat) (s : Session) (label : String) (method : Value) (arguments : List Value) :
    Dispatch :=
  ⟨label, method, arguments, Calling.traced label arguments i s⟩

/-- Invokes the method of a call. -/
def perform (invoke : Invoke) (d : Dispatch) : Except Raised Value × Session :=
  (invoke d.method d.arguments).perform d.session

/-- **What the trace of a call says**: its target and its arguments, if they can be written. -/
def message (d : Dispatch) : Except ForeignError String :=
  (d.arguments.mapM (Value.render d.session.methodsOf)).map fun shown =>
    "Calling " ++ d.label ++ "(" ++ Text.joinWith ", " shown ++ ")"

/-- The trace of a call. -/
def traces (d : Dispatch) : List Record :=
  match d.message with
  | .ok message => [⟨20, Logger.interpreter, message⟩]
  | .error _ => []

/-- The invocation of a method of the embedding program, if that is what is called. -/
def invocation? (d : Dispatch) : Option Invocation :=
  match d.method with
  | .method m => some ⟨m, d.arguments, d.session.methodsOf⟩
  | _ => none

end Dispatch

/-- **How a script ends.** -/
inductive Ending where
  | finished
  /-- The interpreter refuses a call, before anything is invoked. -/
  | refused (e : ScriptError)
  /-- A call is not made because an argument cannot be written. -/
  | unwritten (e : ForeignError)
  /-- The method of a call raises. -/
  | raised (d : Dispatch) (e : Raised)

/-- **The history of a script**, from a session: the calls that it makes, how it ends, and the
session in which it does. -/
inductive History (invoke : Invoke) (i : Nat) :
    Session → List Node → List Dispatch → Ending → Session → Prop
  | finished (s : Session) : History invoke i s [] [] .finished s
  | refused {s : Session} {node : Node} {nodes : List Node} {callee : Calling.Callee}
      {arguments : List Calling.Argument} {e : ScriptError}
      (hreads : Calling.Reads node callee arguments)
      (hverdict : Calling.verdict s i callee arguments = .refused e) :
      History invoke i s (node :: nodes) [] (.refused e) s
  | unwritten {s : Session} {node : Node} {nodes : List Node} {callee : Calling.Callee}
      {arguments : List Calling.Argument} {e : ForeignError}
      (hreads : Calling.Reads node callee arguments)
      (hverdict : Calling.verdict s i callee arguments = .unwritten e) :
      History invoke i s (node :: nodes) [] (.unwritten e) s
  | raised {s t : Session} {node : Node} {nodes : List Node} {callee : Calling.Callee}
      {arguments : List Calling.Argument} {label : String} {method : Value} {values : List Value}
      {e : Raised} (hreads : Calling.Reads node callee arguments)
      (hverdict : Calling.verdict s i callee arguments = .invoked label method values)
      (hraises : (Dispatch.traced i s label method values).perform invoke = (.error e, t)) :
      History invoke i s (node :: nodes) [.traced i s label method values]
        (.raised (.traced i s label method values) e) t
  | answered {s t u : Session} {node : Node} {nodes : List Node} {callee : Calling.Callee}
      {arguments : List Calling.Argument} {label : String} {method v : Value} {values : List Value}
      {calls : List Dispatch} {ending : Ending} (hreads : Calling.Reads node callee arguments)
      (hverdict : Calling.verdict s i callee arguments = .invoked label method values)
      (hanswers : (Dispatch.traced i s label method values).perform invoke = (.ok v, t))
      (hrest : History invoke i t nodes calls ending u) :
      History invoke i s (node :: nodes) (.traced i s label method values :: calls) ending u

namespace Ending

/-- The session once the error of a method was logged. -/
def after (t : Session) : Ending → Session
  | raised d e => Calling.failed d.label e t
  | _ => t

end Ending

/-- Records as often as they are handled. -/
def Logger.repeated (l : Logger) (rs : List Record) : List Record :=
  rs.flatMap (List.replicate l.outlets)

theorem Logger.repeated_append (l : Logger) (rs rs' : List Record) :
    l.repeated (rs ++ rs') = l.repeated rs ++ l.repeated rs' := List.flatMap_append

/-- A record is made once for each outlet. -/
theorem Logger.repeated_singleton (l : Logger) (r : Record) :
    l.repeated [r] = List.replicate l.outlets r := List.flatMap_singleton _ _

/-- What a run of a program logs first. -/
def Record.started : Record := ⟨20, Logger.interpreter, "Starting program execution..."⟩

/-- What a run of a program that comes to its end logs last. -/
def Record.finished : Record := ⟨20, Logger.interpreter, "Program execution finished"⟩

/-- **A session in which the calls of an interpreter are logged.** -/
structure Session.Traces (i : Nat) (s : Session) : Prop where
  logs : s.Logs 20
  known : i < s.interpreters.length
  /-- Calls are traced, whatever methods are registered. -/
  trace : ∀ methodsOf, (s.interpreter i).trace.counts methodsOf = true

theorem Session.Traces.relog (h : s.Traces i) (records : List Record) :
    Session.Traces i { s with records := records } :=
  ⟨h.logs.relog records, h.known, h.trace⟩

/-- Records that are let through are added as often as they are handled. -/
theorem Session.Logs.log_repeated (h : s.Logs 20) {x : Record} (hlevel : 20 ≤ x.level)
    (hfamily : Logger.inFamily x.logger = true) :
    s.log x = { s with records := s.records ++ s.logger.repeated [x] } := by
  rw [h.log_eq hlevel hfamily, Logger.repeated_singleton]

/-- Calls are still traced after something that leaves the log alone. -/
theorem Session.Traces.of_sameLog (h : s.Traces i) (hst : s.SameLog t) : t.Traces i where
  logs := by
    show t.logger.effectiveLevel ≤ 20
    rw [hst.logger]
    exact h.logs
  known := (hst.trace i h.known).1
  trace := by
    rw [(hst.trace i h.known).2]
    exact h.trace

/-- **A call that is made** goes to the target of its callee, and where calls are traced its
arguments can be written. -/
theorem Calling.target_of_invoked {callee : Callee} {arguments : List Argument}
    {label : String} {method : Value} {values : List Value}
    (h : verdict s i callee arguments = .invoked label method values) :
    callee.target s i = .ok ⟨label, method⟩ ∧
      (traces s i = true → ∃ message, Interpreter.traceMessage s label values = .ok message) := by
  unfold verdict at h
  split at h
  · cases h
  · split at h
    · cases h
    · cases htarget : callee.target s i with
      | error e =>
        rw [htarget] at h
        cases h
      | ok t =>
        rw [htarget, Verdict.ofTarget] at h
        split at h
        · cases h
        · next hwritten =>
          obtain ⟨rfl, rfl, rfl⟩ := Verdict.invoked.inj h
          refine ⟨rfl, fun htraces => ?_⟩
          cases hmessage : Interpreter.traceMessage s t.label
              (arguments.map (·.value (s.interpreter i).bindings)) with
          | ok message => exact ⟨message, rfl⟩
          | error e => exact (hwritten e hmessage htraces).elim

/-- **A call is traced before its method is invoked.** -/
theorem Session.Traces.session_traced (h : s.Traces i) {label message : String}
    {values : List Value} (hmessage : Interpreter.traceMessage s label values = .ok message)
    (method : Value) :
    (Dispatch.traced i s label method values).message = .ok message ∧
      (Dispatch.traced i s label method values).session = { s with
        records := s.records ++
          s.logger.repeated (Dispatch.traced i s label method values).traces } := by
  have hsession : (Dispatch.traced i s label method values).session
      = s.log ⟨20, Logger.interpreter, message⟩ := by
    show Calling.traced label values i s = _
    unfold Calling.traced
    rw [hmessage]
    exact if_pos (h.trace s.methodsOf)
  have hlog := h.logs.log_repeated (x := ⟨20, Logger.interpreter, message⟩) (le_refl (20 : Int))
    Logger.inFamily_interpreter
  have htells : (Dispatch.traced i s label method values).message = .ok message := by
    unfold Dispatch.message
    rw [hsession, hlog]
    exact hmessage
  refine ⟨htells, ?_⟩
  rw [hsession, hlog, Dispatch.traces, htells]

/-- **What is logged between two sessions**: one trace for each of some calls, and by the time the
method of a call is invoked the traces of the calls up to that one. -/
structure Logged (i : Nat) (s : Session) (calls : List Dispatch) (t : Session) : Prop where
  traces : t.Traces i
  logger : t.logger = s.logger
  messages : ∀ d ∈ calls, ∃ message, d.message = .ok message
  records : t.records = s.records ++ s.logger.repeated (calls.flatMap Dispatch.traces)
  before : ∀ k d, calls[k]? = some d → d.session.records
    = s.records ++ s.logger.repeated ((calls.take (k + 1)).flatMap Dispatch.traces)

theorem Logged.nil (h : s.Traces i) : Logged i s [] s where
  traces := h
  logger := rfl
  messages := by simp
  records := (List.append_nil _).symm
  before := by simp

/-- **A step of the log**: a call adds its trace, and its method leaves the log alone. -/
theorem Logged.cons (h : s.Traces i) {callee : Calling.Callee} {arguments : List Calling.Argument}
    {label : String} {method : Value} {values : List Value}
    (hverdict : Calling.verdict s i callee arguments = .invoked label method values)
    (hquiet : (invoke method values).Quiet) {o : Except Raised Value} {u : Session}
    (hperform : (Dispatch.traced i s label method values).perform invoke = (o, t))
    {calls : List Dispatch} (hrest : t.Traces i → Logged i t calls u) :
    Logged i s (.traced i s label method values :: calls) u := by
  obtain ⟨message, hmessage⟩ := (Calling.target_of_invoked hverdict).2 (h.trace s.methodsOf)
  obtain ⟨htells, hsession⟩ := h.session_traced hmessage method
  have hsame : (Dispatch.traced i s label method values).session.SameLog t := by
    have hsame := hquiet (Dispatch.traced i s label method values).session
    rwa [show (invoke method values).perform _ = _ from hperform] at hsame
  -- of the call only its session and its trace matter from here on
  generalize Dispatch.traced i s label method values = d at htells hsession hsame ⊢
  have hbefore : d.session.records = s.records ++ s.logger.repeated d.traces := by rw [hsession]
  have hlogger : t.logger = s.logger := hsame.logger.trans (by rw [hsession])
  have hrecords : t.records = s.records ++ s.logger.repeated d.traces :=
    hsame.records.trans hbefore
  have htraces : t.Traces i := by
    refine Session.Traces.of_sameLog ?_ hsame
    rw [hsession]
    exact h.relog _
  obtain ⟨hu, hlogger', hmessages, hlog, hsessions⟩ := hrest htraces
  rw [hlogger] at hlogger' hlog hsessions
  refine ⟨hu, hlogger', List.forall_mem_cons.mpr ⟨⟨message, htells⟩, hmessages⟩, ?_, ?_⟩
  · rw [hlog, hrecords, List.flatMap_cons, Logger.repeated_append, List.append_assoc]
  · intro k d' hd
    cases k with
    | zero =>
      obtain rfl := Option.some.inj hd
      rw [List.take_succ_cons, List.take_zero, List.flatMap_singleton]
      exact hbefore
    | succ k =>
      rw [hsessions k d' hd, hrecords, List.take_succ_cons, List.flatMap_cons,
        Logger.repeated_append, List.append_assoc]

namespace History

variable {nodes : List Node} {calls : List Dispatch} {ending : Ending}

/-- **The log along a history** holds one trace for each call. -/
theorem log (h : History invoke i s nodes calls ending t)
    (hinvoke : ∀ v arguments, (invoke v arguments).Quiet) (hs : s.Traces i) :
    Logged i s calls t := by
  induction h with
  | finished s => exact .nil hs
  | refused hreads hverdict => exact .nil hs
  | unwritten hreads hverdict => exact .nil hs
  | raised hreads hverdict hraises => exact .cons hs hverdict (hinvoke _ _) hraises .nil
  | answered hreads hverdict hanswers hrest ih =>
    exact .cons hs hverdict (hinvoke _ _) hanswers ih

/-- **The invocations along a history** are those of its calls, one each, if methods do not invoke
others. -/
theorem invocations {host : Host} (hhost : host.Solitary) {depth : Nat}
    (h : History (host.invoke (depth + 1)) i s nodes calls ending t) :
    t.invocations = s.invocations ++ calls.filterMap Dispatch.invocation? := by
  have hstep : ∀ d : Dispatch, (d.perform (host.invoke (depth + 1))).2.invocations
      = d.session.invocations ++ d.invocation?.toList := by
    rintro ⟨label, method, values, session⟩
    cases method with
    | method m => exact hhost _ m values _
    | inherited which names attributes =>
      show ((ofForeign (Host.inheritedResult which names attributes values)).perform
        session).2.invocations = session.invocations ++ []
      rw [List.append_nil]
      cases Host.inheritedResult which names attributes values <;> rfl
    | _ => exact (List.append_nil _).symm
  have hsession : ∀ (s : Session) (label : String) (method : Value) (values : List Value),
      (Dispatch.traced i s label method values).session.invocations = s.invocations := by
    intro s label method values
    show (Calling.traced label values i s).invocations = s.invocations
    unfold Calling.traced
    split
    · rw [Session.logIf_eq]
    · rfl
  induction h with
  | finished s => exact (List.append_nil _).symm
  | refused hreads hverdict => exact (List.append_nil _).symm
  | unwritten hreads hverdict => exact (List.append_nil _).symm
  | @raised s t node nodes callee arguments label method values e hreads hverdict hraises =>
    have hone := hstep (.traced i s label method values)
    rw [hraises, hsession] at hone
    rw [List.filterMap_cons]
    cases hinvocation : (Dispatch.traced i s label method values).invocation? <;>
      rwa [hinvocation] at hone
  | @answered s t u node nodes callee arguments label method v values calls ending hreads hverdict
      hanswers hrest ih =>
    have hone := hstep (.traced i s label method values)
    rw [hanswers, hsession] at hone
    rw [ih, hone, List.append_assoc, List.filterMap_cons]
    cases (Dispatch.traced i s label method values).invocation? <;> rfl

end History

/-! ## Errors of the interpreter -/

/-- The names that an error lists in its text. -/
def Cause.listed : Cause → List Value
  | unknownCoreMethod _ (.list names) => names
  | undefinedVariable _ (.list names) => names.take listedNames
  | unknownMethod _ _ (.list names) => names
  | _ => []

/-- **The errors of the interpreter have a text** exactly if the names that they list are texts. -/
theorem Calling.exists_text_iff_of_refused {callee : Callee} {arguments : List Argument}
    {e : ScriptError} (h : verdict s i callee arguments = .refused e)
    {methodsOf : Nat → List Scalar} (hnames : Value.ShortNames methodsOf) :
    (∃ text, e.text methodsOf = .ok text) ↔ ∀ v ∈ e.cause.listed, v.text?.isSome = true := by
  have hnothing : ∀ {cause : Cause} {message : String}, cause.Told methodsOf → cause.listed = [] →
      ((∃ text, ScriptError.text methodsOf { cause := cause, message := .text message }
          = .ok text) ↔
        ∀ v ∈ cause.listed, v.text?.isSome = true) := by
    intro cause message htold hlisted
    rw [ScriptError.exists_text_iff_of_unplaced hnames, hlisted]
    exact iff_of_true htold (by simp)
  unfold verdict at h
  split at h
  · -- an array is refused by its kind alone
    obtain rfl := Verdict.refused.inj h
    exact hnothing trivial rfl
  split at h
  · cases h
  unfold Verdict.ofTarget at h
  split at h
  case _ e' htarget =>
    obtain rfl := Verdict.refused.inj h
    cases callee with
    | direct method =>
      obtain rfl := Except.error.inj htarget
      exact hnothing trivial rfl
    | core method =>
      rw [Callee.target] at htarget
      split at htarget
      · cases htarget
      · obtain rfl := Except.error.inj htarget
        rw [ScriptError.exists_text_iff_of_unplaced hnames]
        exact Value.counts_imp_joinsTexts_iff (List.Subset.refl _)
    | object x method =>
      rw [Callee.target] at htarget
      split at htarget
      · obtain rfl := Except.error.inj htarget
        rw [ScriptError.exists_text_iff_of_unplaced hnames, Cause.told_undefinedVariable]
        exact Value.counts_imp_joinsTexts_iff (List.take_subset _ _)
      · split at htarget
        · cases htarget
        · obtain rfl := Except.error.inj htarget
          rw [ScriptError.exists_text_iff_of_unplaced hnames, Cause.told_unknownMethod]
          exact Value.counts_imp_joinsTexts_iff (List.Subset.refl _)
  case _ => split at h <;> cases h

/-- **The error that a history ends with has a text** exactly if the names that it lists are
texts. -/
theorem History.exists_text_iff {nodes : List Node} {calls : List Dispatch} {ending : Ending}
    (h : History invoke i s nodes calls ending t) {e : ScriptError} (hending : ending = .refused e)
    {methodsOf : Nat → List Scalar} (hnames : Value.ShortNames methodsOf) :
    (∃ text, e.text methodsOf = .ok text) ↔ ∀ v ∈ e.cause.listed, v.text?.isSome = true := by
  induction h with
  | finished s => cases hending
  | refused hreads hverdict =>
    obtain rfl := Ending.refused.inj hending
    exact Calling.exists_text_iff_of_refused hverdict hnames
  | unwritten hreads hverdict => cases hending
  | raised hreads hverdict hraises => cases hending
  | answered hreads hverdict hanswers hrest ih => exact ih hending

/-! ## Reports -/

namespace Raised

/-- What the interpreter logs of what the method of a call raised. -/
def callReport (methodsOf : Nat → List Scalar) (label : String) (e : Raised) : List Record :=
  match e.isReported, e.text methodsOf with
  | true, .ok text =>
    [⟨40, Logger.interpreter, "Error while executing " ++ label ++ ": " ++ text⟩]
  | _, _ => []

/-- What the runner logs of what was raised. -/
def report (methodsOf : Nat → List Scalar) (e : Raised) : List Record :=
  match e.isReported, e.brief methodsOf with
  | true, .ok brief => [⟨40, Logger.runner, "Execution error: " ++ brief⟩]
  | _, _ => []

/-- What the runner raises in the end: what was raised, unless its text cannot be made. -/
def afterReport (methodsOf : Nat → List Scalar) (e : Raised) : Raised :=
  match e.isReported, e.brief methodsOf with
  | true, .error e' => .foreign e'
  | _, _ => e

end Raised

namespace Ending

/-- **What is logged once a script has ended.** -/
def records (methodsOf : Nat → List Scalar) : Ending → List Record
  | finished => [.finished]
  | refused e => Raised.report methodsOf (.script e)
  | unwritten e => Raised.report methodsOf (.foreign e)
  | raised d e => e.callReport methodsOf d.label ++ e.report methodsOf

/-- **What becomes of a run whose script has ended.** -/
def result (methodsOf : Nat → List Scalar) : Ending → Except Raised Unit
  | finished => .ok ()
  | refused e => .error (Raised.afterReport methodsOf (.script e))
  | unwritten e => .error (Raised.afterReport methodsOf (.foreign e))
  | raised _ e => .error (e.afterReport methodsOf)

variable {methodsOf : Nat → List Scalar} {ending : Ending} {e : Raised}

end Ending

/-- The first record is made before the first statement, and the last only if there was no error. -/
theorem Interpreter.perform_interpret (program : Node) (s : Session) :
    (interpret invoke i program).perform s
      = match (evaluateAll invoke i program.children).perform (s.log .started) with
        | (.ok _, t) => (.ok (), t.log .finished)
        | (.error e, t) => (.error e, t) := by
  unfold interpret Record.started Record.finished
  rw [perform_bind, perform_log]
  dsimp only
  rw [perform_bind]
  cases (evaluateAll invoke i program.children).perform _ with
  | mk o t => cases o <;> rfl

end CallScript
