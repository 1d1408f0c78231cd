import CallScript.Proofs.TreeValues
import CallScript.Proofs.Writability
import CallScript.Session.Host

/-!
# What running keeps

Running a source evaluates calls, and a call invokes methods of the embedding program, about which
nothing is known. What can be said of a run therefore has the form: if the methods keep it, so does
the run. What is kept may concern one session, or several that are compared with each other: two
that differ in their log, or one for every setting of some switches. So an invariant here is a
property of a *family* of sessions, and actions keep it (`Action.Keeps`) if from every family that
has it they answer or raise the same in all members, and leave a family that has it again.

By itself running does little to a session: it logs, it logs traces and dumps if they are asked for,
and it records invocations. An invariant that survives this is *robust* (`Action.Robust`), provided
that its members are the same but for what only the log shows (`Session.unobserved`), so that what
running reads from them is the same. Every robust invariant is kept by evaluating
(`Interpreter.keeps_evaluate`), by running (`Runner.keeps_run`) and by invoking
(`Host.keeps_invoke`), and this is the only place where these are taken apart.

One thing stands in the way: a trace of arguments that cannot be written raises an error, and only
where calls are traced. So either the members trace the same calls, or the values that a run meets
can all be written. For the latter an invariant comes with a class of values that a run does not
leave (`Value.Hereditary`); the variables and the methods of its members belong to it.

The methods of an embedding program may be anything, but methods that use a session by its
operations can be written down as procedures (`Host.Procedure`), and then it is enough to look at
the operations that they use (`Host.keeps_ofProcedures`).
-/

namespace CallScript

variable {α β : Type}

/-! ## Performing actions -/

namespace Action

/-- One action after another: the second starts from the session that the first leaves, if there is
an answer to go on with. -/
theorem perform_bind (A : Action α) (f : α → Action β) (s : Session) :
    (A >>= f).perform s = match A.perform s with
      | (.ok a, t) => (f a).perform t
      | (.error e, t) => (.error e, t) := by
  show (ExceptT.bindCont f (A.perform s).1).run (A.perform s).2 = _
  obtain ⟨o, t⟩ := A.perform s
  cases o <;> rfl

/-- What handles an error starts from the session that the error leaves. -/
theorem perform_tryCatch (A : Action α) (f : Raised → Action α) (s : Session) :
    (tryCatch A f).perform s = match A.perform s with
      | (.ok a, t) => (.ok a, t)
      | (.error e, t) => (f e).perform t := by
  unfold perform
  rw [ExceptT.run_tryCatch, StateT.run_bind]
  cases StateT.run (ExceptT.run A) s with
  | mk o t => cases o <;> rfl

/-- What is raised once a report was made, and the session then: a report may raise an error of its
own. -/
def reported (report : Raised → Action Unit) (e : Raised) (s : Session) : Raised × Session :=
  if e.isReported then
    match (report e).perform s with
    | (.ok _, t) => (e, t)
    | (.error e', t) => (e', t)
  else (e, s)

/-- A report is made for errors that are reported, and it may raise another error in their place. -/
theorem perform_reporting (report : Raised → Action Unit) (A : Action α) (s : Session) :
    (reporting report A).perform s = match A.perform s with
      | (.ok a, t) => (.ok a, t)
      | (.error e, t) => (.error (reported report e t).1, (reported report e t).2) := by
  unfold reporting reported
  rw [perform_tryCatch]
  cases A.perform s with
  | mk o t =>
    cases o with
    | ok a => rfl
    | error e =>
      by_cases he : e.isReported = true
      · simp only [if_pos he, perform_bind]
        cases (report e).perform t with
        | mk o' t' => cases o' <;> rfl
      · simp only [if_neg he]
        rfl

theorem perform_get (s : Session) : (get : Action Session).perform s = (.ok s, s) := rfl

theorem perform_log (level : Int) (logger message : String) (s : Session) :
    (log level logger message).perform s = (.ok (), s.log ⟨level, logger, message⟩) := rfl

end Action

/-! ## Traces and dumps -/

namespace Record

/-- Whether a message starts with a text. -/
def startsWith (r : Record) (start : String) : Bool := start.toList.isPrefixOf r.message.toList

/-- Whether a record is the trace of a call. -/
def isTrace (r : Record) : Bool :=
  r.level = 20 && r.logger = Logger.interpreter && r.startsWith "Calling "

/-- Whether a record is a dump of a token or of a tree. -/
def isDump (r : Record) : Bool :=
  r.level = 10 && r.logger = Logger.runner && (r.startsWith "Token(" || r.startsWith "AST:\n")

/-- A record that is neither a trace nor a dump. -/
def isPlain (r : Record) : Bool := !r.isTrace && !r.isDump

theorem startsWith_append (level : Int) (logger start rest : String) :
    (Record.mk level logger (start ++ rest)).startsWith start = true := by
  rw [startsWith, String.toList_append, List.isPrefixOf_iff_prefix]
  exact List.prefix_append _ _

theorem isPlain_registry (message : String) :
    (Record.mk 10 Logger.registry message).isPlain = true := by
  simp [isPlain, isTrace, isDump, Logger.registry, Logger.runner]

/-- Errors are neither traces nor dumps. -/
theorem isPlain_error (logger message : String) :
    (Record.mk 40 logger message).isPlain = true := rfl

end Record

namespace Session

/-- Logs records if a flag counts as true. -/
def logIf (s : Session) (flag : Value) (rs : List Record) : Session :=
  if s.truthy flag then rs.foldl Session.log s else s

/-- Logging adds the records as often as they are handled, and nothing else. -/
theorem foldl_log (s : Session) (rs : List Record) :
    rs.foldl Session.log s = { s with records := s.records ++ rs.flatMap s.logger.copies } := by
  induction rs generalizing s with
  | nil =>
    show s = { s with records := s.records ++ [] }
    rw [List.append_nil]
  | cons r rs ih =>
    rw [List.foldl_cons, ih, List.flatMap_cons]
    show { s with records := s.records ++ s.logger.copies r ++ _ } = _
    rw [List.append_assoc]
    rfl

/-- Records that hang on a flag are added, once for each copy that the logger makes, if the flag
counts as true. -/
theorem logIf_eq (s : Session) (flag : Value) (rs : List Record) :
    s.logIf flag rs = { s with
      records := s.records ++ if s.truthy flag then rs.flatMap s.logger.copies else [] } := by
  unfold logIf
  split
  · exact s.foldl_log rs
  · rw [List.append_nil]

/-! ## What is only observed in the log -/

/-- A session without its switches, whether calls are traced and whether there are dumps, and
without what was logged. -/
def unswitched (s : Session) : Session :=
  { s with
    interpreters := s.interpreters.map fun i => { i with trace := .null }
    runners := s.runners.map fun r => { r with settings := { r.settings with debug := .null } }
    records := [] }

/-- A session without its log levels. -/
def unleveled (s : Session) : Session :=
  { s with
    runners := s.runners.map fun r => { r with settings := { r.settings with logLevel := .null } }
    logger := { s.logger with level := 0 } }

/-- **A session without what only the log shows**: its switches, its log levels and what was
logged. -/
def unobserved (s : Session) : Session := s.unswitched.unleveled

/-- What only the log shows has no part in the variables. -/
theorem bindings_unobserved (s : Session) (i : Nat) :
    (s.unobserved.interpreter i).bindings = (s.interpreter i).bindings := by
  unfold interpreter unobserved unswitched unleveled
  rw [List.getElem?_map]
  cases s.interpreters[i]? <;> rfl

/-- What only the log shows has no part in which registry an interpreter uses. -/
theorem core_unobserved (s : Session) (i : Nat) :
    (s.unobserved.interpreter i).core = (s.interpreter i).core := by
  unfold interpreter unobserved unswitched unleveled
  rw [List.getElem?_map]
  cases s.interpreters[i]? <;> rfl

/-- What only the log shows has no part in which interpreter a runner drives. -/
theorem driven_unobserved (s : Session) (r : Nat) :
    (s.unobserved.runner r).interpreter = (s.runner r).interpreter := by
  unfold runner unobserved unswitched unleveled
  rw [List.getElem?_map, List.getElem?_map]
  cases s.runners[r]? <;> rfl

theorem unswitched_logIf (s : Session) (flag : Value) (rs : List Record) :
    (s.logIf flag rs).unswitched = s.unswitched := by
  rw [logIf_eq]
  rfl

theorem unswitched_log (s : Session) (r : Record) : (s.log r).unswitched = s.unswitched :=
  s.unswitched_logIf (.bool true) [r]

theorem unobserved_log (s : Session) (r : Record) : (s.log r).unobserved = s.unobserved :=
  congrArg unleveled (s.unswitched_log r)

/-- Logging changes only what the log shows. -/
theorem unobserved_logIf (s : Session) (flag : Value) (rs : List Record) :
    (s.logIf flag rs).unobserved = s.unobserved :=
  congrArg unleveled (s.unswitched_logIf flag rs)

end Session

/-! ## Values that a run meets -/

/-- **A class of values that a run does not leave.** It holds all scalars that can be written, and
with a value also what methods of the value are and what they answer. -/
structure Value.Hereditary (W : Value → Prop) : Prop where
  short : ∀ {s : Scalar}, Value.isLong s = false → W (.scalar s)
  undefined : W .undefined
  exposed : ∀ {registries : Nat → Registry} {v m : Value} {name : Scalar}, W v →
    (∀ id name m, (registries id).get? name = some m → W m) →
    v.method? registries name = some m → W m
  inherited : ∀ {which : InheritedMethod} {names : List Scalar}
    {attributes : List (String × Value)} {arguments : List Value} {result : Value},
    W (.inherited which names attributes) → (∀ v ∈ arguments, W v) →
    Host.inheritedResult which names attributes arguments = .ok result → W result

/-- All values are such a class. -/
theorem Value.hereditary_true : Value.Hereditary fun _ => True where
  short _ := trivial
  undefined := trivial
  exposed _ _ _ := trivial
  inherited _ _ _ := trivial

/-- A session whose variables and registered methods belong to a class of values. -/
structure Session.Stocks (W : Value → Prop) (s : Session) : Prop where
  bound : ∀ {j : Nat} {name : Scalar} {v : Value},
    (s.interpreter j).bindings.get? name = some v → W v
  registered : ∀ {id : Nat} {name : Scalar} {m : Value}, (s.registry id).get? name = some m → W m

theorem Session.stocks_true (s : Session) : s.Stocks fun _ => True :=
  ⟨fun _ => trivial, fun _ => trivial⟩

/-! ## Invariants of families of sessions -/

namespace Action

variable {ι : Type} {I : (ι → Session) → Prop} {J : Nat → Prop} {W : Value → Prop}
  {P : α → Prop} {Q : β → Prop}

/-- **Actions keep an invariant**: from a family of sessions that has it they answer or raise the
same in all members, and leave a family that has it. What they answer has a property. -/
def Keeps (I : (ι → Session) → Prop) (P : α → Prop) (A : ι → Action α) : Prop :=
  ∀ σ, I σ → ∃ o, (∀ k, ((A k).perform (σ k)).1 = o) ∧ (∀ a, o = .ok a → P a) ∧
    I fun k => ((A k).perform (σ k)).2

/-- Actions that answer the same and change sessions in a known way. -/
theorem Keeps.of_perform {A : ι → Action α} {f : (ι → Session) → ι → Session}
    (o : (ι → Session) → Except Raised α)
    (hA : ∀ σ, I σ → ∀ k, (A k).perform (σ k) = (o σ, f σ k))
    (ho : ∀ σ, I σ → ∀ a, o σ = .ok a → P a)
    (hf : ∀ σ, I σ → I (f σ)) : Keeps I P A := by
  intro σ hσ
  refine ⟨o σ, fun k => by rw [hA σ hσ k], ho σ hσ, ?_⟩
  have hstate : (fun k => ((A k).perform (σ k)).2) = f σ := funext fun k => by rw [hA σ hσ k]
  rw [hstate]
  exact hf σ hσ

/-- Actions that only change sessions. -/
theorem Keeps.of_change {A : ι → Action Unit} {f : (ι → Session) → ι → Session}
    (hA : ∀ σ, I σ → ∀ k, (A k).perform (σ k) = (.ok (), f σ k)) (hf : ∀ σ, I σ → I (f σ)) :
    Keeps I (fun _ => True) A :=
  .of_perform (fun _ => .ok ()) hA (fun _ _ _ _ => trivial) hf

theorem keeps_pure {a : α} (ha : P a) : Keeps I P fun _ => pure a :=
  fun _ hσ => ⟨.ok a, fun _ => rfl, fun _ h => Except.ok.inj h ▸ ha, hσ⟩

theorem keeps_throw (e : Raised) : Keeps I P fun _ => (throw e : Action α) :=
  fun _ hσ => ⟨.error e, fun _ => rfl, nofun, hσ⟩

/-- **Actions that keep an invariant can follow each other**, if the second does for every answer
that the first may give. -/
theorem Keeps.bind {A : ι → Action α} {f : ι → α → Action β} (h : Keeps I P A)
    (hf : ∀ a, P a → Keeps I Q fun k => f k a) : Keeps I Q fun k => A k >>= f k := by
  intro σ hσ
  obtain ⟨o, ho, hP, hI⟩ := h σ hσ
  have hperform : ∀ k, (A k).perform (σ k) = (o, ((A k).perform (σ k)).2) :=
    fun k => Prod.ext (ho k) rfl
  cases o with
  | ok a =>
    have hbind : ∀ k, (A k >>= f k).perform (σ k) = (f k a).perform ((A k).perform (σ k)).2 :=
      fun k => by rw [perform_bind, hperform k]
    simp only [hbind]
    exact hf a (hP a rfl) _ hI
  | error e =>
    have hbind : ∀ k, (A k >>= f k).perform (σ k) = (.error e, ((A k).perform (σ k)).2) :=
      fun k => by rw [perform_bind, hperform k]
    simp only [hbind]
    exact ⟨.error e, fun _ => rfl, nofun, hI⟩

/-- An action whose errors are handled keeps what it and the handler keep. -/
theorem Keeps.tryCatch {A : ι → Action α} {f : ι → Raised → Action α} (h : Keeps I P A)
    (hf : ∀ e, Keeps I P fun k => f k e) : Keeps I P fun k => tryCatch (A k) (f k) := by
  intro σ hσ
  obtain ⟨o, ho, hP, hI⟩ := h σ hσ
  have hperform : ∀ k, (A k).perform (σ k) = (o, ((A k).perform (σ k)).2) :=
    fun k => Prod.ext (ho k) rfl
  cases o with
  | ok a =>
    have hcatch : ∀ k, (MonadExcept.tryCatch (A k) (f k)).perform (σ k)
        = (.ok a, ((A k).perform (σ k)).2) :=
      fun k => by rw [perform_tryCatch, hperform k]
    simp only [hcatch]
    exact ⟨.ok a, fun _ => rfl, hP, hI⟩
  | error e =>
    have hcatch : ∀ k, (MonadExcept.tryCatch (A k) (f k)).perform (σ k)
        = (f k e).perform ((A k).perform (σ k)).2 :=
      fun k => by rw [perform_tryCatch, hperform k]
    simp only [hcatch]
    exact hf e _ hI

/-- An action whose errors are reported keeps what it and the report keep. -/
theorem Keeps.reporting {report : ι → Raised → Action Unit} {A : ι → Action α}
    (hreport : ∀ e, Keeps I (fun _ => True) fun k => report k e) (h : Keeps I P A) :
    Keeps I P fun k => reporting (report k) (A k) := by
  refine h.tryCatch fun e => ?_
  by_cases he : e.isReported = true
  · simp only [if_pos he]
    exact (hreport e).bind fun _ _ => keeps_throw e
  · simp only [if_neg he]
    exact keeps_throw e

theorem keeps_ofRaised {x : Except Raised α} (h : ∀ a, x = .ok a → P a) :
    Keeps I P fun _ => ofRaised x := by
  cases x with
  | ok a => exact keeps_pure (h a rfl)
  | error e => exact keeps_throw _

theorem keeps_ofForeign {x : Except ForeignError α} (h : ∀ a, x = .ok a → P a) :
    Keeps I P fun _ => ofForeign x := by
  cases x with
  | ok a => exact keeps_pure (h a rfl)
  | error e => exact keeps_throw _

/-- **A robust invariant** makes no difference where only the log does, and survives what running
does to sessions by itself, as long as it runs in the interpreters `J`. The values that a run meets
belong to the class `W`. -/
structure Robust (J : Nat → Prop) (W : Value → Prop) (I : (ι → Session) → Prop) : Prop where
  nonempty : Nonempty ι
  hereditary : Value.Hereditary W
  /-- The members are the same, but for what only the log shows. -/
  alike : ∀ {σ}, I σ → ∀ k l, (σ k).unobserved = (σ l).unobserved
  /-- Values can be written, unless all members trace the same calls. -/
  writes : (∀ v, W v → v.isWritable = true) ∨ ∀ {σ}, I σ → ∀ {j}, J j → ∀ k l,
    (σ k).truthy ((σ k).interpreter j).trace = (σ l).truthy ((σ l).interpreter j).trace
  stocks : ∀ {σ}, I σ → ∀ k, (σ k).Stocks W
  /-- The runners drive interpreters in `J`. -/
  driven : ∀ {σ}, I σ → ∀ k id, J ((σ k).runner id).interpreter
  log : ∀ {σ} {r : Record}, I σ → r.isPlain = true → I fun k => (σ k).log r
  trace : ∀ {σ} {r : Record} {j : Nat}, I σ → J j → r.isTrace = true →
    I fun k => (σ k).logIf ((σ k).interpreter j).trace [r]
  dump : ∀ {σ} (id : Nat) (rs : List Record), I σ → (∀ r ∈ rs, r.isDump = true) →
    I fun k => (σ k).logIf ((σ k).runner id).settings.debug rs
  record : ∀ {σ} (m : HostMethod) (arguments : List Value), I σ →
    I fun k => ((Host.record m arguments).perform (σ k)).2

/-- A robust invariant that also survives changes of variables and of registries, as long as what is
bound and registered belongs to the class. -/
structure Closed (J : Nat → Prop) (W : Value → Prop) (I : (ι → Session) → Prop) : Prop
    extends Robust J W I where
  bindings : ∀ {σ} (j : Nat) {b : Table Scalar Value}, (∀ name v, b.get? name = some v → W v) →
    I σ → I fun k => (σ k).setInterpreter j { (σ k).interpreter j with bindings := b }
  registry : ∀ {σ} (id : Nat) {r : Registry}, (∀ name m, r.get? name = some m → W m) →
    I σ → I fun k => (σ k).setRegistry id r

/-- Ways to invoke callable values that keep an invariant. -/
def KeepsInvoking (W : Value → Prop) (I : (ι → Session) → Prop) (invoke : Invoke) : Prop :=
  ∀ v arguments, W v → (∀ a ∈ arguments, W a) → Keeps I W fun _ => invoke v arguments

/-- An invariant that allows plain records allows to log them. -/
theorem Robust.keeps_log (hI : Robust J W I) {level : Int} {logger message : String}
    (hplain : (Record.mk level logger message).isPlain = true) :
    Keeps I (fun _ => True) fun _ => Action.log level logger message :=
  .of_change (fun σ _ k => perform_log level logger message (σ k)) fun _ hσ => hI.log hσ hplain

/-- What does not depend on what only the log shows is the same in all members. -/
theorem Robust.eq_of_unobserved (hI : Robust J W I) {γ : Type} {F : Session → γ}
    (hF : ∀ s, F s.unobserved = F s) {σ : ι → Session} (hσ : I σ) (k l : ι) :
    F (σ k) = F (σ l) := by
  rw [← hF (σ k), hI.alike hσ k l, hF]

/-- **Reading** what does not depend on what only the log shows. -/
theorem Robust.keeps_get (hI : Robust J W I) {F : Session → Action α}
    (hF : ∀ s, F s.unobserved = F s) (h : ∀ {σ}, I σ → ∀ k, Keeps I P fun _ => F (σ k)) :
    Keeps I P fun _ => get >>= F := by
  intro σ hσ
  -- what one member reads, all read
  obtain ⟨l⟩ := hI.nonempty
  have hperform : ∀ k, (get >>= F : Action α).perform (σ k) = (F (σ l)).perform (σ k) := by
    intro k
    show (F (σ k)).perform (σ k) = _
    rw [hI.eq_of_unobserved hF hσ k l]
  simp only [hperform]
  exact h hσ l σ hσ

end Action

open CallScript.Action

variable {ι : Type} {I : (ι → Session) → Prop} {J : Nat → Prop} {W : Value → Prop}
  {invoke : Invoke}

/-! ## Evaluating -/

namespace Interpreter

/-- An identifier is resolved by the variables alone. -/
theorem resolve_unobserved (s : Session) (i : Nat) (name : String) :
    resolve (s.unobserved.interpreter i) name = resolve (s.interpreter i) name := by
  unfold resolve
  rw [s.bindings_unobserved]

/-- **What a call is made on does not depend on the log.** -/
theorem target_unobserved (s : Session) (i : Nat) (object method : Node) :
    target s.unobserved i object method = target s i object method := by
  unfold target coreTarget objectTarget undefinedVariable Session.coreOf
  rw [s.bindings_unobserved, s.core_unobserved]
  rfl

/-- What a name stands for belongs to the class. -/
theorem resolve_mem (hW : Value.Hereditary W) {s : Session} (hs : s.Stocks W) (j : Nat)
    (name : String) : W (resolve (s.interpreter j) name) := by
  unfold resolve
  cases hbound : (s.interpreter j).bindings.get? (.text name) with
  | some v => exact hs.bound hbound
  | none => exact hW.short rfl

/-- What a call goes to belongs to the class. -/
theorem target_mem (hW : Value.Hereditary W) {s : Session} (hs : s.Stocks W) {j : Nat}
    {object method : Node} {t : Target} (h : target s j object method = .ok t) : W t.method := by
  obtain ⟨name, -, h⟩ := bind_eq_ok_iff.mp h
  split at h
  · unfold coreTarget at h
    split at h
    · next m hm =>
      cases h
      exact hs.registered hm
    · cases h
  · obtain ⟨objectName, -, h⟩ := bind_eq_ok_iff.mp h
    unfold objectTarget at h
    split at h
    · cases h
    · next v hv =>
      split at h
      · next m hm =>
        cases h
        exact hW.exposed (hs.bound hv) (fun _ _ _ => hs.registered) hm
      · cases h
  · cases h

/-- What is logged for a call is a trace. -/
theorem isTrace_of_traceMessage {s : Session} {label message : String} {arguments : List Value}
    (h : traceMessage s label arguments = .ok message) :
    (Record.mk 20 Logger.interpreter message).isTrace = true := by
  obtain ⟨shown, -, rfl⟩ := map_eq_ok_iff.mp h
  unfold Record.isTrace
  rw [String.append_assoc, String.append_assoc, String.append_assoc, Record.startsWith_append]
  rfl

/-- **A trace can be made exactly if all arguments can be written.** -/
theorem exists_traceMessage_iff (s : Session) (label : String) (arguments : List Value) :
    (∃ message, traceMessage s label arguments = .ok message) ↔
      ∀ v ∈ arguments, v.isWritable = true := by
  rw [traceMessage, exists_map_eq_ok_iff, exists_mapM_eq_ok_iff]
  exact forall₂_congr fun v _ => Value.exists_render_iff s.shortNames v

/-- **What a trace does**: a call that is not traced is only made; one that is leaves its trace, or
is not made because its arguments cannot be written. -/
theorem perform_logTrace (j : Nat) (label : String) (arguments : List Value) (s : Session) :
    (logTrace j label arguments).perform s =
      if s.truthy (s.interpreter j).trace then
        match traceMessage s label arguments with
        | .ok message => (.ok (), s.log ⟨20, Logger.interpreter, message⟩)
        | .error e => (.error (.foreign e), s)
      else (.ok (), s) := by
  show (if s.truthy (s.interpreter j).trace then _ else _ : Action Unit).perform s = _
  split
  · cases traceMessage s label arguments <;> rfl
  · rfl

/-- A trace that can be made. -/
theorem perform_logTrace_of_ok {j : Nat} {label message : String} {arguments : List Value}
    {s : Session} (h : traceMessage s label arguments = .ok message) :
    (logTrace j label arguments).perform s = (.ok (), s.logIf (s.interpreter j).trace
      [⟨20, Logger.interpreter, message⟩]) := by
  rw [perform_logTrace, h]
  unfold Session.logIf
  split <;> rfl

/-- Tracing a call keeps a robust invariant, whether the trace can be written or not: all sessions
of the family agree on that. -/
theorem keeps_logTrace (hI : Robust J W I) {j : Nat} (hj : J j) (label : String)
    {arguments : List Value} (hargs : ∀ v ∈ arguments, W v) :
    Keeps I (fun _ => True) fun _ => logTrace j label arguments := by
  obtain ⟨l⟩ := hI.nonempty
  intro σ hσ
  have hsame : ∀ k, traceMessage (σ k) label arguments = traceMessage (σ l) label arguments :=
    fun k =>
      hI.eq_of_unobserved (F := fun s => traceMessage s label arguments) (fun _ => rfl) hσ k l
  cases hmessage : traceMessage (σ l) label arguments with
  | ok message =>
    simp only [fun k => perform_logTrace_of_ok (j := j) ((hsame k).trans hmessage)]
    exact ⟨.ok (), fun _ => rfl, fun _ _ => trivial,
      hI.trace hσ hj (isTrace_of_traceMessage hmessage)⟩
  | error e =>
    -- a trace that cannot be made is the same to all members, as they trace the same calls
    obtain hwrites | hwrites := hI.writes
    · obtain ⟨message, hok⟩ := (exists_traceMessage_iff (σ l) label arguments).mpr fun v hv =>
        hwrites v (hargs v hv)
      rw [hok] at hmessage
      cases hmessage
    · simp only [perform_logTrace, hsame, hmessage, fun k => hwrites hσ hj k l]
      split
      · exact ⟨_, fun _ => rfl, nofun, hσ⟩
      · exact ⟨_, fun _ => rfl, fun _ _ => trivial, hσ⟩

theorem keeps_logFailure (hI : Robust J W I) (label : String) (e : Raised) :
    Keeps I (fun _ => True) fun _ => logFailure label e := by
  refine hI.keeps_get (fun _ => rfl) fun _ _ => ?_
  split
  · exact hI.keeps_log (Record.isPlain_error _ _)
  · exact keeps_pure trivial

/-- **A call of a script keeps what invoking keeps.** -/
theorem keeps_call (hI : Robust J W I) (hinvoke : KeepsInvoking W I invoke) {j : Nat} (hj : J j)
    (object method : Node) {arguments : List Value} (hargs : ∀ v ∈ arguments, W v) :
    Keeps I W fun _ => call invoke j object method arguments := by
  refine hI.keeps_get (fun s => ?_) fun hσ k => ?_
  · rw [target_unobserved]
  · refine (keeps_ofRaised (P := fun t => W t.method) fun t ht => ?_).bind fun t ht => ?_
    · exact target_mem hI.hereditary (hI.stocks hσ k) ht
    · exact (keeps_logTrace hI hj t.label hargs).bind fun _ _ =>
        (hinvoke t.method arguments ht hargs).reporting (keeps_logFailure hI t.label)

mutual

/-- **Evaluation keeps a robust invariant**, if what it invokes does. -/
theorem keeps_evaluate (hI : Robust J W I) (hinvoke : KeepsInvoking W I invoke) {j : Nat}
    (hj : J j) : ∀ node : Node, node.Holds W → Keeps I W fun _ => evaluate invoke j node
  | ⟨.program, _, children⟩, h => by
    simp only [evaluate]
    exact (keeps_evaluateAll hI hinvoke hj children h.2).bind fun _ _ =>
      keeps_pure (hI.hereditary.short rfl)
  | ⟨.call, _, children⟩, h => by
    simp only [evaluate]
    exact keeps_evaluateCall hI hinvoke hj children h.2
  | ⟨.string, value, _⟩, h => by
    simp only [evaluate]
    exact keeps_pure h.1
  | ⟨.number, value, _⟩, h => by
    simp only [evaluate]
    exact keeps_pure h.1
  | ⟨.identifier, value, _⟩, _ => by
    simp only [evaluate]
    refine hI.keeps_get (fun s => ?_) fun hσ k => ?_
    · simp only [resolve_unobserved]
      rfl
    · exact (keeps_ofRaised (P := fun _ => True) fun _ _ => trivial).bind fun name _ =>
        keeps_pure (resolve_mem hI.hereditary (hI.stocks hσ k) j name)
  | ⟨.core, _, _⟩, _ => keeps_throw _
  | ⟨.method, _, _⟩, _ => keeps_throw _
  | ⟨.array, _, _⟩, _ => keeps_throw _

theorem keeps_evaluateCall (hI : Robust J W I) (hinvoke : KeepsInvoking W I invoke) {j : Nat}
    (hj : J j) : ∀ children : List Node, Node.HoldAll W children →
      Keeps I W fun _ => evaluateCall invoke j children
  | object :: method :: arguments, h => by
    simp only [evaluateCall]
    exact (keeps_evaluateAll hI hinvoke hj arguments h.2.2).bind fun values hvalues =>
      keeps_call hI hinvoke hj object method hvalues
  | [_], _ => keeps_throw _
  | [], _ => keeps_throw _

/-- Nodes that are evaluated one after the other keep what each of them does. -/
theorem keeps_evaluateAll (hI : Robust J W I) (hinvoke : KeepsInvoking W I invoke) {j : Nat}
    (hj : J j) : ∀ nodes : List Node, Node.HoldAll W nodes →
      Keeps I (fun vs => ∀ v ∈ vs, W v) fun _ => evaluateAll invoke j nodes
  | [], _ => keeps_pure fun _ hv => absurd hv List.not_mem_nil
  | node :: nodes, h => by
    simp only [evaluateAll]
    exact (keeps_evaluate hI hinvoke hj node h.1).bind fun v hv =>
      (keeps_evaluateAll hI hinvoke hj nodes h.2).bind fun vs hvs =>
        keeps_pure (List.forall_mem_cons.mpr ⟨hv, hvs⟩)

end

/-- **Interpreting a program keeps a robust invariant.** -/
theorem keeps_interpret (hI : Robust J W I) (hinvoke : KeepsInvoking W I invoke) {j : Nat}
    (hj : J j) {program : Node} (h : program.Holds W) :
    Keeps I (fun _ => True) fun _ => interpret invoke j program := by
  obtain ⟨kind, value, children⟩ := program
  exact (hI.keeps_log (by decide)).bind fun _ _ =>
    (keeps_evaluateAll hI hinvoke hj children h.2).bind fun _ _ => hI.keeps_log (by decide)

/-- What binding a variable does. -/
theorem perform_bound (j : Nat) (name v : Value) (s : Session) :
    (Interpreter.bind j name v).perform s = match bound (s.interpreter j).bindings name v with
      | .ok b => (.ok (), s.setInterpreter j { s.interpreter j with bindings := b })
      | .error e => (.error (.foreign e), s) := by
  show (ofForeign (bound (s.interpreter j).bindings name v) >>= fun b =>
    modify (·.setInterpreter j { s.interpreter j with bindings := b })).perform s = _
  cases bound (s.interpreter j).bindings name v <;> rfl

/-- What is bound is the new value or an old one. -/
theorem bound_mem {b b' : Table Scalar Value} {name v : Value} (h : bound b name v = .ok b')
    (hold : ∀ key x, b.get? key = some x → W x) (hv : W v) :
    ∀ key x, b'.get? key = some x → W x := by
  obtain ⟨key, -, rfl⟩ := map_eq_ok_iff.mp h
  cases key with
  | none => exact hold
  | some key =>
    intro key' x hx
    rw [Table.get?_insert] at hx
    split at hx
    · exact Option.some.inj hx ▸ hv
    · exact hold key' x hx

/-- Binding a variable to a value of the class keeps a closed invariant. -/
theorem keeps_bind (hI : Closed J W I) (j : Nat) (name : Value) {v : Value} (hv : W v) :
    Keeps I (fun _ => True) fun _ => Interpreter.bind j name v := by
  intro σ hσ
  obtain ⟨l⟩ := hI.nonempty
  have hbindings := fun k => hI.eq_of_unobserved (F := fun s => (s.interpreter j).bindings)
    (fun s => s.bindings_unobserved j) hσ k l
  simp only [perform_bound, hbindings]
  cases hbound : bound ((σ l).interpreter j).bindings name v with
  | ok b =>
    refine ⟨.ok (), fun _ => rfl, fun _ _ => trivial, hI.bindings j (bound_mem hbound ?_ hv) hσ⟩
    exact fun _ _ => (hI.stocks hσ l).bound
  | error e => exact ⟨.error _, fun _ => rfl, nofun, hσ⟩

theorem keeps_clear (hI : Closed J W I) (j : Nat) :
    Keeps I (fun _ => True) fun _ => clear j :=
  .of_change (fun _ _ _ => rfl) fun _ hσ => hI.bindings j (b := {}) (fun _ _ => nofun) hσ

/-- What a variable is bound to belongs to the class. -/
theorem keeps_lookup (hI : Robust J W I) (j : Nat) (name : Value) :
    Keeps I W fun _ => get >>= fun s => ofForeign (lookup (s.interpreter j).bindings name) := by
  refine hI.keeps_get (fun s => ?_) fun hσ k => keeps_ofForeign fun v hv => ?_
  · rw [s.bindings_unobserved]
  · obtain ⟨key, -, rfl⟩ := map_eq_ok_iff.mp hv
    cases hbound : key.bind ((_ : Session).interpreter j).bindings.get? with
    | none => exact hI.hereditary.undefined
    | some v =>
      obtain ⟨key, -, hkey⟩ := Option.bind_eq_some_iff.mp hbound
      exact (hI.stocks hσ k).bound hkey

end Interpreter

/-! ## Registries -/

namespace Core

/-- A registry may be replaced by another one whose methods belong to the class. -/
theorem keeps_setRegistry (hI : Closed J W I) (id : Nat) {r : Registry}
    (hr : ∀ name m, r.get? name = some m → W m) :
    Keeps I (fun _ => True) fun _ => modify (·.setRegistry id r) :=
  .of_change (fun _ _ _ => rfl) fun _ hσ => hI.registry id hr hσ

/-- What is registered is the new method or an old one. -/
theorem add_mem {r r' : Registry} {methodsOf : Nat → List Scalar} {name method description : Value}
    (h : r.add methodsOf name method description = .ok r')
    (hold : ∀ key m, r.get? key = some m → W m) (hmethod : W method) :
    ∀ key m, r'.get? key = some m → W m := by
  unfold Registry.add at h
  split at h
  · cases h
  · split at h
    · cases h
      intro key m hm
      rw [Registry.get?, Registry.enter, Table.get?_insert] at hm
      split at hm
      · exact Option.some.inj hm ▸ hmethod
      · exact hold key m hm
    · cases h

/-- **Registering a method of the class keeps a closed invariant**, also if it fails. -/
theorem keeps_add (hI : Closed J W I) (id : Nat) (name description : Value) {method : Value}
    (hmethod : W method) :
    Keeps I (fun _ => True) fun _ => add id name method description := by
  refine hI.keeps_get (fun _ => rfl) fun {σ} hσ k => ?_
  refine (keeps_ofRaised (P := fun r => ∀ key m, r.get? key = some m → W m) fun r hr => ?_).bind
    fun new hnew => ?_
  · exact add_mem hr (fun _ _ => (hI.stocks hσ k).registered) hmethod
  · dsimp only
    split
    · exact (hI.keeps_log (Record.isPlain_registry _)).bind fun _ _ => keeps_setRegistry hI id hnew
    · exact keeps_setRegistry hI id hnew

/-- The method of a name belongs to the class. -/
theorem keeps_find? (hI : Robust J W I) (id : Nat) (name : Value) :
    Keeps I (fun m => ∀ x, m = some x → W x) fun _ => find? id name := by
  refine (keeps_ofForeign (P := fun _ => True) fun _ _ => trivial).bind fun key _ =>
    hI.keeps_get (fun _ => rfl) fun hσ k => keeps_pure fun x hx => ?_
  obtain ⟨key, -, hkey⟩ := Option.bind_eq_some_iff.mp hx
  exact (hI.stocks hσ k).registered hkey

/-- What is left of a registry was there before. -/
theorem get?_of_remove {r : Registry} {key name : Scalar} {m : Value}
    (h : (r.remove key).get? name = some m) : r.get? name = some m := by
  unfold Registry.remove at h
  split at h
  · rw [Registry.get?, Table.get?_erase] at h
    split at h
    · cases h
    · exact h
  · exact h

/-- Removing a method keeps a closed invariant. -/
theorem keeps_remove (hI : Closed J W I) (id : Nat) (name : Value) :
    Keeps I (fun _ => True) fun _ => remove id name := by
  refine ((keeps_find? hI.toRobust id name).bind fun _ _ => keeps_pure trivial).bind
    (P := fun _ => True) fun there _ => ?_
  cases name with
  | scalar key =>
    refine Keeps.bind (P := fun _ => True) ?_ fun _ _ => keeps_pure trivial
    obtain ⟨l⟩ := hI.nonempty
    refine .of_change (fun σ hσ k => ?_) fun σ hσ =>
      hI.registry id (r := ((σ l).registry id).remove key)
        (fun _ _ hm => (hI.stocks hσ l).registered (get?_of_remove hm)) hσ
    have hregistry := hI.eq_of_unobserved (F := fun s => s.registry id) (fun _ => rfl) hσ k l
    rw [← hregistry]
    rfl
  | _ => exact keeps_pure trivial

/-- A call by the embedding program keeps what invoking keeps. -/
theorem keeps_call (hI : Robust J W I) (hinvoke : KeepsInvoking W I invoke) (id : Nat)
    (name : Value) {arguments : List Value} (hargs : ∀ v ∈ arguments, W v) :
    Keeps I W fun _ => call invoke id name arguments := by
  refine Keeps.bind (P := W) ((keeps_find? hI id name).bind fun method hmethod => ?_)
    fun method hmethod => hinvoke _ _ hmethod hargs
  cases method with
  | some method => exact keeps_pure (hmethod method rfl)
  | none => exact hI.keeps_get (fun _ => rfl) fun _ _ => keeps_throw _

end Core

/-! ## Running -/

namespace Runner

/-- The dump of a token, if its value can be displayed. -/
def tokenRecords (s : Session) (t : Token) : List Record :=
  match t.value.display s.methodsOf with
  | .ok shown => [⟨10, Logger.runner, "Token(" ++ t.kind.name ++ ", " ++ shown ++ ")"⟩]
  | .error _ => []

theorem isDump_tokenRecords {s : Session} {t : Token} :
    ∀ r ∈ tokenRecords s t, r.isDump = true := by
  intro r hr
  unfold tokenRecords at hr
  split at hr
  · obtain rfl := List.mem_singleton.mp hr
    unfold Record.isDump
    rw [String.append_assoc, String.append_assoc, String.append_assoc, Record.startsWith_append]
    rfl
  · cases hr

theorem perform_dumps (id : Nat) (s : Session) :
    (dumps id).perform s = (.ok (s.truthy (s.runner id).settings.debug), s) := rfl

/-- A token is dumped record by record. -/
theorem perform_dumpToken (t : Token) (s : Session) :
    (dumpToken t).perform s = (.ok (), (tokenRecords s t).foldl Session.log s) := by
  unfold dumpToken tokenRecords
  rw [perform_bind, perform_get]
  dsimp only
  cases t.value.display s.methodsOf <;> rfl

/-- Dumping one token after another. What is displayed does not depend on the log. -/
theorem perform_forM_dumpToken (tokens : List Token) (s : Session) :
    (tokens.forM dumpToken).perform s
      = (.ok (), (tokens.flatMap (tokenRecords s)).foldl Session.log s) := by
  induction tokens generalizing s with
  | nil => rfl
  | cons t tokens ih =>
    show (dumpToken t >>= fun _ => tokens.forM dumpToken).perform s = _
    rw [perform_bind, perform_dumpToken]
    dsimp only
    have hsame : tokenRecords ((tokenRecords s t).foldl Session.log s) = tokenRecords s := by
      rw [Session.foldl_log]
      rfl
    rw [ih, hsame, List.flatMap_cons, List.foldl_append]

/-- All tokens but the end are dumped, if the runner dumps. -/
theorem perform_dumpTokens (id : Nat) (tokens : List Token) (s : Session) :
    (dumpTokens id tokens).perform s = (.ok (), s.logIf (s.runner id).settings.debug
      (tokens.dropLast.flatMap (tokenRecords s))) := by
  unfold dumpTokens Session.logIf
  rw [perform_bind, perform_dumps]
  cases s.truthy (s.runner id).settings.debug with
  | true => exact perform_forM_dumpToken tokens.dropLast s
  | false => rfl

theorem keeps_dumpTokens (hI : Robust J W I) (id : Nat) (tokens : List Token) :
    Keeps I (fun _ => True) fun _ => dumpTokens id tokens := by
  obtain ⟨l⟩ := hI.nonempty
  refine .of_change (fun σ hσ k => ?_) fun σ hσ =>
    hI.dump id (tokens.dropLast.flatMap (tokenRecords (σ l))) hσ fun r hr => ?_
  · rw [perform_dumpTokens, hI.eq_of_unobserved (F := tokenRecords) (fun _ => rfl) hσ k l]
  · obtain ⟨t, -, ht⟩ := List.mem_flatMap.mp hr
    exact isDump_tokenRecords r ht

/-- A tree that can be drawn is dumped in one record. -/
theorem perform_dumpTree (id : Nat) {program : Node} {text : String}
    (h : program.text 0 = .ok text) (s : Session) :
    (dumpTree id program).perform s = (.ok (), s.logIf (s.runner id).settings.debug
      [⟨10, Logger.runner, "AST:\n" ++ text⟩]) := by
  unfold dumpTree Session.logIf
  rw [perform_bind, perform_dumps, h]
  cases s.truthy (s.runner id).settings.debug <;> rfl

/-- Dumping a tree that can be drawn keeps a robust invariant. -/
theorem keeps_dumpTree (hI : Robust J W I) (id : Nat) {program : Node} {text : String}
    (h : program.text 0 = .ok text) : Keeps I (fun _ => True) fun _ => dumpTree id program := by
  have hdump : ∀ r ∈ [Record.mk 10 Logger.runner ("AST:\n" ++ text)], r.isDump = true := by
    intro r hr
    obtain rfl := List.mem_singleton.mp hr
    unfold Record.isDump
    rw [Record.startsWith_append, Bool.or_true]
    rfl
  exact .of_change (fun σ _ k => perform_dumpTree id h (σ k)) fun σ hσ => hI.dump id _ hσ hdump

theorem keeps_logFailure (hI : Robust J W I) (e : Raised) :
    Keeps I (fun _ => True) fun _ => logFailure e := by
  refine hI.keeps_get (fun _ => rfl) fun _ _ =>
    (keeps_ofForeign (P := fun _ => True) fun _ _ => trivial).bind fun brief _ => ?_
  exact hI.keeps_log (Record.isPlain_error _ _)

/-- **Executing a source text keeps a robust invariant**: lexing and parsing leave the session
alone, and the dumps in between are records. -/
theorem keeps_execute (hI : Robust J W I) (hinvoke : KeepsInvoking W I invoke) (id : Nat)
    (source : String) : Keeps I (fun _ => True) fun _ => execute invoke id source := by
  unfold execute
  cases htokens : tokenize source with
  | error e => exact keeps_throw _
  | ok tokens =>
    rw [show ofExcept (.ok tokens) = pure tokens from rfl, pure_bind]
    refine (keeps_dumpTokens hI id tokens).bind fun _ _ => ?_
    cases hparse : parse tokens with
    | error e => exact keeps_throw _
    | ok program =>
      rw [show ofExcept (.ok program) = pure program from rfl, pure_bind]
      -- the dump succeeds because the tree was read from a text
      have hsource : parseSource source = .ok program := by
        rw [parseSource, htokens]
        exact hparse
      have hholds : program.Holds W := (holds_of_parseSource hsource).mono fun v => by
        rintro ⟨s, rfl, hs⟩
        exact hI.hereditary.short hs
      obtain ⟨text, htext⟩ := exists_text_of_parseSource hsource
      refine (keeps_dumpTree hI id htext).bind fun _ _ => hI.keeps_get (fun s => ?_) fun hσ k => ?_
      · rw [s.driven_unobserved]
      · exact Interpreter.keeps_interpret hI hinvoke (hI.driven hσ k id) hholds

/-- **Running a source keeps a robust invariant**, if what it invokes does. -/
theorem keeps_run (hI : Robust J W I) (hinvoke : KeepsInvoking W I invoke) (id : Nat)
    (source : String) : Keeps I (fun _ => True) fun _ => run invoke id source :=
  (keeps_execute hI hinvoke id source).reporting (keeps_logFailure hI)

end Runner

/-! ## Methods of the embedding program -/

namespace Host

/-- **A host that keeps an invariant**: its methods do, given that what they invoke does. -/
def Keeps (W : Value → Prop) (I : (ι → Session) → Prop) (host : Host) : Prop :=
  ∀ invoke : Invoke, KeepsInvoking W I invoke → ∀ m arguments, (∀ a ∈ arguments, W a) →
    Action.Keeps I W fun _ => host invoke m arguments

/-- **Invoking the methods of a host** keeps what the host keeps, however deep they call each
other. -/
theorem keeps_invoke (hI : Robust J W I) {host : Host} (h : host.Keeps W I) (depth : Nat) :
    KeepsInvoking W I (host.invoke depth) := by
  induction depth with
  | zero => exact fun _ _ _ _ => keeps_throw _
  | succ depth ih =>
    intro v arguments hv hargs
    cases v with
    | method m =>
      refine Action.Keeps.bind (A := fun _ => record m arguments) (P := fun _ => True) ?_
        fun _ _ => h _ ih m arguments hargs
      exact .of_change (fun _ _ _ => rfl) fun _ hσ => hI.record m arguments hσ
    | inherited which names attributes =>
      exact keeps_ofForeign fun _ => hI.hereditary.inherited hv hargs
    | _ => exact keeps_throw _

/-- What a method of an embedding program can ask of a session. -/
inductive Operation where
  | bind (interpreter : Nat) (name v : Value)
  | clear (interpreter : Nat)
  | lookup (interpreter : Nat) (name : Value)
  | add (registry : Nat) (name method description : Value)
  | remove (registry : Nat) (name : Value)
  | call (registry : Nat) (name : Value) (arguments : List Value)
  | invoke (v : Value) (arguments : List Value)
  | interpret (interpreter : Nat) (program : Node)
  | run (runner : Nat) (source : String)

/-- Performs an operation. -/
def Operation.perform (invoke : Invoke) : Operation → Action Value
  | .bind interpreter name v => do
    Interpreter.bind interpreter name v
    return .null
  | .clear interpreter => do
    Interpreter.clear interpreter
    return .null
  | .lookup interpreter name => do
    Action.ofForeign (Interpreter.lookup ((← get).interpreter interpreter).bindings name)
  | .add registry name method description => do
    Core.add registry name method description
    return .null
  | .remove registry name => return .bool (← Core.remove registry name)
  | .call registry name arguments => Core.call invoke registry name arguments
  | .invoke v arguments => invoke v arguments
  | .interpret interpreter program => do
    Interpreter.interpret invoke interpreter program
    return .null
  | .run runner source => do
    Runner.run invoke runner source
    return .null

/-- What a method does: it answers, raises, or performs an operation and goes on depending on what
came of it. -/
inductive Procedure where
  | answer (v : Value)
  | raise (e : Raised)
  | perform (o : Operation) (next : Except Raised Value → Procedure)

/-- Follows a procedure. -/
def Procedure.follow (invoke : Invoke) : Procedure → Action Value
  | .answer v => return v
  | .raise e => throw e
  | .perform o next => do
    let outcome ← tryCatch (return .ok (← o.perform invoke)) fun e => return .error e
    (next outcome).follow invoke

/-- The host whose methods follow procedures. -/
def ofProcedures (procedure : HostMethod → List Value → Procedure) : Host :=
  fun invoke m arguments => (procedure m arguments).follow invoke

/-- An operation that only runs in certain interpreters, and brings in only values of a class. -/
def Operation.Within (J : Nat → Prop) (W : Value → Prop) : Operation → Prop
  | .bind _ _ v => W v
  | .add _ _ method _ => W method
  | .call _ _ arguments => ∀ a ∈ arguments, W a
  | .invoke v arguments => W v ∧ ∀ a ∈ arguments, W a
  | .interpret interpreter program => J interpreter ∧ program.Holds W
  | _ => True

/-- An operation of the embedding program keeps a closed invariant, if it stays within what the
invariant covers. -/
theorem keeps_perform (hI : Closed J W I) (hinvoke : KeepsInvoking W I invoke) {o : Operation}
    (ho : o.Within J W) : Action.Keeps I W fun _ => o.perform invoke := by
  have hnull : W .null := hI.hereditary.short rfl
  cases o with
  | bind interpreter name v =>
    exact (Interpreter.keeps_bind hI interpreter name ho).bind fun _ _ => keeps_pure hnull
  | clear interpreter =>
    exact (Interpreter.keeps_clear hI interpreter).bind fun _ _ => keeps_pure hnull
  | lookup interpreter name => exact Interpreter.keeps_lookup hI.toRobust interpreter name
  | add registry name method description =>
    exact (Core.keeps_add hI registry name description ho).bind fun _ _ => keeps_pure hnull
  | remove registry name =>
    exact (Core.keeps_remove hI registry name).bind fun _ _ =>
      keeps_pure (hI.hereditary.short rfl)
  | call registry name arguments => exact Core.keeps_call hI.toRobust hinvoke registry name ho
  | invoke v arguments => exact hinvoke v arguments ho.1 ho.2
  | interpret interpreter program =>
    exact (Interpreter.keeps_interpret hI.toRobust hinvoke ho.1 ho.2).bind fun _ _ =>
      keeps_pure hnull
  | run runner source =>
    exact (Runner.keeps_run hI.toRobust hinvoke runner source).bind fun _ _ => keeps_pure hnull

/-- A procedure all of whose operations have a property, and whose answers belong to a class of
values as long as the answers of its operations do. -/
def Procedure.Uses (U : Operation → Prop) (W : Value → Prop) : Procedure → Prop
  | .answer v => W v
  | .raise _ => True
  | .perform o next =>
    U o ∧ ∀ outcome, (∀ v, outcome = .ok v → W v) → (next outcome).Uses U W

/-- A procedure keeps what each of its operations keeps. -/
theorem keeps_follow {U : Operation → Prop}
    (hU : ∀ o, U o → Action.Keeps I W fun _ => o.perform invoke) {p : Procedure}
    (hp : p.Uses U W) : Action.Keeps I W fun _ => p.follow invoke := by
  induction p with
  | answer v => exact keeps_pure hp
  | raise e => exact keeps_throw e
  | perform o next ih =>
    refine Action.Keeps.bind (P := fun outcome => ∀ v, outcome = .ok v → W v)
      (Action.Keeps.tryCatch ?_ fun e => keeps_pure nofun) fun outcome houtcome =>
        ih outcome (hp.2 outcome houtcome)
    exact (hU o hp.1).bind fun v hv => keeps_pure fun v' h => Except.ok.inj h ▸ hv

/-- A host made of procedures keeps what their operations keep. -/
theorem keeps_ofProcedures_of_uses {U : Operation → Prop}
    (hU : ∀ invoke : Invoke, KeepsInvoking W I invoke →
      ∀ o, U o → Action.Keeps I W fun _ => o.perform invoke)
    {procedure : HostMethod → List Value → Procedure}
    (h : ∀ m arguments, (∀ a ∈ arguments, W a) → (procedure m arguments).Uses U W) :
    (ofProcedures procedure).Keeps W I :=
  fun invoke hinvoke m arguments hargs => keeps_follow (hU invoke hinvoke) (h m arguments hargs)

/-- **A host whose methods use a session by its operations** keeps every closed invariant. -/
theorem keeps_ofProcedures (hI : Closed J W I) {procedure : HostMethod → List Value → Procedure}
    (h : ∀ m arguments, (∀ a ∈ arguments, W a) →
      (procedure m arguments).Uses (Operation.Within J W) W) :
    (ofProcedures procedure).Keeps W I :=
  keeps_ofProcedures_of_uses (fun _ hinvoke _ ho => keeps_perform hI hinvoke ho) h

/-- Any procedure is within all interpreters and all values. -/
theorem Procedure.uses_within (p : Procedure) :
    p.Uses (Operation.Within (fun _ => True) fun _ => True) fun _ => True := by
  induction p with
  | answer v => trivial
  | raise e => trivial
  | perform o next ih =>
    refine ⟨?_, fun outcome _ => ih outcome⟩
    cases o with
    | call registry name arguments => exact fun _ _ => trivial
    | invoke v arguments => exact ⟨trivial, fun _ _ => trivial⟩
    | interpret interpreter program => exact ⟨trivial, Node.holds_true program⟩
    | _ => trivial

end Host

end CallScript
