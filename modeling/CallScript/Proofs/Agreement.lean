import CallScript.Proofs.Invariants

/-!
# Actions that only the log tells apart

Much of what a run does is only seen in the log. To compare two runs without it, sessions are
compared up to their records (`Session.Alike`), and actions by what they do from such sessions: two
actions agree if they answer or raise alike and leave alike sessions (`Action.Agrees`). Logging then
agrees with doing nothing, and agreement passes through everything that puts actions together, so
the logging in a run can be dropped piece by piece.

An action that agrees with itself is *blind*: nothing it does depends on what was logged. That is to
keep an invariant of pairs of sessions (`Action.blind_iff_keeps`), and a robust one. The methods of
an embedding program are arbitrary, so for them blindness is an assumption (`Host.Tame`). It holds
of all methods that use a session by its operations, in whatever order and depending on whatever
they are given (`Host.tame_ofProcedures`).

Agreement is about one runner and the interpreter it drives. A runner never changes its interpreter,
but what the runner does with a second source depends on it, and so it is part of what alike
sessions have in common.
-/

namespace CallScript

variable {α β : Type} {r i : Nat}

/-! ## Sessions -/

/-- A session without what was logged. -/
def Session.unlogged (s : Session) : Session := { s with records := [] }

/-- **Sessions that only the log tells apart**, in which a runner drives a certain interpreter. -/
structure Session.Alike (r i : Nat) (s t : Session) : Prop where
  unlogged : s.unlogged = t.unlogged
  drives : (s.runners[r]?).map (·.interpreter) = some i

namespace Session.Alike

variable {s t u : Session}

/-- Sessions that are alike have the same runners. -/
theorem runners (h : s.Alike r i t) : s.runners = t.runners := by
  show s.unlogged.runners = t.unlogged.runners
  rw [h.unlogged]

theorem symm (h : s.Alike r i t) : t.Alike r i s :=
  ⟨h.unlogged.symm, by rw [← h.runners]; exact h.drives⟩

theorem trans (h : s.Alike r i t) (h' : t.Alike r i u) : s.Alike r i u :=
  ⟨h.unlogged.trans h'.unlogged, h.drives⟩

/-- Sessions that are alike have the same interpreter behind the runner. -/
theorem interpreter (h : s.Alike r i t) : (s.runner r).interpreter = i := by
  obtain ⟨x, hx, rfl⟩ := Option.map_eq_some_iff.mp h.drives
  rw [Session.runner, hx]
  rfl

/-- Changing sessions in a way that does not depend on what was logged, and not their runners. -/
theorem map {f : Session → Session} (hf : ∀ s, (f s).unlogged = f s.unlogged)
    (hrunners : ∀ s, (f s).runners = s.runners) (h : s.Alike r i t) : (f s).Alike r i (f t) := by
  constructor
  · rw [hf, hf, h.unlogged]
  · rw [hrunners]
    exact h.drives

/-- Changing only what was logged. -/
theorem relog {s' t' : Session} (h : s.Alike r i t) (hs : s'.unlogged = s.unlogged)
    (ht : t'.unlogged = t.unlogged) : s'.Alike r i t' := by
  constructor
  · rw [hs, ht, h.unlogged]
  · show (s'.unlogged.runners[r]?).map _ = _
    rw [hs]
    exact h.drives

end Session.Alike

/-- Logging changes the log only. -/
theorem Session.unlogged_logIf (s : Session) (flag : Value) (xs : List Record) :
    (s.logIf flag xs).unlogged = s.unlogged := by
  rw [logIf_eq]
  rfl

theorem Session.unlogged_log (s : Session) (x : Record) : (s.log x).unlogged = s.unlogged :=
  s.unlogged_logIf (.bool true) [x]

namespace Action

/-- **Reporting what either of two actions raises** is reporting what the first raises and then what
the second raises. -/
theorem reporting_bind (report : Raised → Action Unit) (A : Action α) (f : α → Action β) :
    reporting report (A >>= f) = reporting report A >>= fun a => reporting report (f a) := by
  funext s
  show (reporting report (A >>= f)).perform s = (reporting report A >>= _).perform s
  rw [perform_reporting, perform_bind, perform_bind, perform_reporting]
  cases A.perform s with
  | mk o t =>
    cases o with
    | ok a => exact (perform_reporting report (f a) t).symm
    | error e => rfl

/-! ## Agreement -/

/-- **Two actions agree**: from alike sessions they answer or raise alike and leave alike
sessions. -/
def Agrees (r i : Nat) (A B : Action α) : Prop :=
  ∀ s t : Session, s.Alike r i t →
    (A.perform s).1 = (B.perform t).1 ∧ (A.perform s).2.Alike r i (B.perform t).2

/-- An action that does not depend on what was logged. -/
def Blind (r i : Nat) (A : Action α) : Prop := Agrees r i A A

theorem Agrees.symm {A B : Action α} (h : Agrees r i A B) : Agrees r i B A := by
  intro s t hst
  obtain ⟨hresult, hstate⟩ := h t s hst.symm
  exact ⟨hresult.symm, hstate.symm⟩

/-- Agreement can be chained, since it is about all sessions that are alike. -/
theorem Agrees.trans {A B C : Action α} (h : Agrees r i A B) (h' : Agrees r i B C) :
    Agrees r i A C := by
  intro s t hst
  obtain ⟨hresult, hstate⟩ := h s t hst
  -- the middle action runs from the second session on both sides
  obtain ⟨hresult', hstate'⟩ := h' t t (hst.symm.trans hst)
  exact ⟨hresult.trans hresult', hstate.trans hstate'⟩

/-- The pairs of sessions that only the log tells apart. -/
def Pair (r i : Nat) (σ : Bool → Session) : Prop := (σ true).Alike r i (σ false)

/-- To agree is to keep the pairs of sessions that only the log tells apart. -/
theorem agrees_of_keeps {P : α → Prop} {A : Bool → Action α} (h : Keeps (Pair r i) P A) :
    Agrees r i (A true) (A false) := by
  intro s t hst
  obtain ⟨o, ho, -, hstate⟩ := h (fun k => if k then s else t) hst
  exact ⟨(ho true).trans (ho false).symm, hstate⟩

/-- Actions that agree keep sessions alike, as a family of two. -/
theorem Agrees.keeps {A B : Action α} (h : Agrees r i A B) :
    Keeps (Pair r i) (fun _ => True) fun k => if k then A else B := by
  intro σ hσ
  obtain ⟨hresult, hstate⟩ := h (σ true) (σ false) hσ
  refine ⟨(A.perform (σ true)).1, fun k => ?_, fun _ _ => trivial, hstate⟩
  cases k with
  | true => rfl
  | false => exact hresult.symm

/-- An action is blind exactly if it keeps sessions alike. -/
theorem blind_iff_keeps {A : Action α} :
    Blind r i A ↔ Keeps (Pair r i) (fun _ => True) fun _ => A := by
  constructor
  · intro h
    have hkeeps := h.keeps
    simp only [ite_self] at hkeeps
    exact hkeeps
  · exact agrees_of_keeps

/-- Actions that agree can follow each other. -/
theorem Agrees.bind {A B : Action α} {f g : α → Action β} (h : Agrees r i A B)
    (hf : ∀ a, Agrees r i (f a) (g a)) : Agrees r i (A >>= f) (B >>= g) :=
  agrees_of_keeps (h.keeps.bind fun a _ => (hf a).keeps)

/-- What agrees with doing nothing can be left out. -/
theorem Agrees.skip {A : Action Unit} {B C : Action α} (h : Agrees r i A (pure ()))
    (h' : Agrees r i B C) : Agrees r i (A >>= fun _ => B) C := by
  have hboth := h.bind fun _ => h'
  rwa [pure_bind] at hboth

/-- **Logging agrees with doing nothing.** -/
theorem agrees_log (level : Int) (logger message : String) :
    Agrees r i (log level logger message) (pure ()) := by
  intro s t hst
  rw [perform_log]
  exact ⟨rfl, hst.relog (s.unlogged_log _) rfl⟩

/-- **What only logs agrees with doing nothing.** -/
theorem agrees_logIf {A : Action Unit} {flag : Session → Value} {xs : Session → List Record}
    (h : ∀ s, A.perform s = (.ok (), s.logIf (flag s) (xs s))) : Agrees r i A (pure ()) := by
  intro s t hst
  rw [h s]
  exact ⟨rfl, hst.relog (s.unlogged_logIf _ _) rfl⟩

/-- Reading which interpreter the runner drives. -/
theorem agrees_driven {F : Nat → Action α} {B : Action α} (h : Agrees r i (F i) B) :
    Agrees r i (get >>= fun s => F (s.runner r).interpreter) B := by
  intro s t hst
  show ((F (s.runner r).interpreter).perform s).1 = _ ∧ _
  rw [perform_bind]
  show _ ∧ ((F (s.runner r).interpreter).perform s).2.Alike r i _
  rw [hst.interpreter]
  exact h s t hst

/-- Actions that agree do so with reports that agree. -/
theorem Agrees.reporting {report report' : Raised → Action Unit} {A B : Action α}
    (hreport : ∀ e, Agrees r i (report e) (report' e)) (h : Agrees r i A B) :
    Agrees r i (reporting report A) (reporting report' B) :=
  agrees_of_keeps (Keeps.reporting (fun e => (hreport e).keeps) h.keeps)

theorem Pair.unlogged {σ : Bool → Session} (h : Pair r i σ) (k : Bool) :
    (σ k).unlogged = (σ true).unlogged := by
  cases k with
  | true => rfl
  | false => exact h.symm.unlogged

/-- Being alike is a closed invariant. -/
theorem closed_pair (r i : Nat) : Closed (fun _ => True) (fun _ => True) (Pair r i) where
  nonempty := ⟨true⟩
  hereditary := Value.hereditary_true
  alike {σ} hσ k l := by
    show (σ k).unlogged.unobserved = (σ l).unlogged.unobserved
    rw [hσ.unlogged k, hσ.unlogged l]
  writes := .inr fun {σ} hσ j _ k l => by
    show (σ k).unlogged.truthy ((σ k).unlogged.interpreter j).trace
      = (σ l).unlogged.truthy ((σ l).unlogged.interpreter j).trace
    rw [hσ.unlogged k, hσ.unlogged l]
  stocks _ _ := Session.stocks_true _
  driven _ _ _ := trivial
  log hσ _ := hσ.relog (Session.unlogged_log _ _) (Session.unlogged_log _ _)
  trace hσ _ _ := hσ.relog (Session.unlogged_logIf _ _ _) (Session.unlogged_logIf _ _ _)
  dump _ _ hσ _ := hσ.relog (Session.unlogged_logIf _ _ _) (Session.unlogged_logIf _ _ _)
  record m arguments hσ := hσ.map (f := fun s => ((Host.record m arguments).perform s).2)
    (fun _ => rfl) fun _ => rfl
  bindings {_} j {b} _ hσ :=
    hσ.map (f := fun s => s.setInterpreter j { s.interpreter j with bindings := b })
      (fun _ => rfl) fun _ => rfl
  registry {_} id {x} _ hσ := hσ.map (f := fun s => s.setRegistry id x) (fun _ => rfl) fun _ => rfl

end Action

open CallScript.Action

/-! ## Evaluating -/

namespace Interpreter

variable {invoke : Invoke}

/-- **Evaluation does not depend on what was logged**, if what it invokes does not. -/
theorem blind_evaluateAll (hinvoke : ∀ v arguments, Blind r i (invoke v arguments)) (j : Nat)
    (nodes : List Node) : Blind r i (evaluateAll invoke j nodes) :=
  agrees_of_keeps (keeps_evaluateAll (closed_pair r i).toRobust
    (fun v arguments _ _ => blind_iff_keeps.mp (hinvoke v arguments)) trivial nodes
    (Node.holdAll_true nodes))

/-- **Interpreting a program agrees with evaluating its statements.** -/
theorem agrees_interpret (hinvoke : ∀ v arguments, Blind r i (invoke v arguments)) (j : Nat)
    (program : Node) :
    Agrees r i (interpret invoke j program)
      (evaluateAll invoke j program.children >>= fun _ => pure ()) := by
  refine (agrees_log _ _ _).skip ?_
  exact (blind_evaluateAll hinvoke j program.children).bind fun _ => agrees_log _ _ _

end Interpreter

/-! ## Running -/

namespace Runner

theorem agrees_dumpTokens (id : Nat) (tokens : List Token) :
    Agrees r i (dumpTokens id tokens) (pure ()) :=
  agrees_logIf (perform_dumpTokens id tokens)

/-- A tree that can be drawn is dumped without a trace outside the log. -/
theorem agrees_dumpTree (id : Nat) {program : Node} {text : String}
    (h : program.text 0 = .ok text) : Agrees r i (dumpTree id program) (pure ()) :=
  agrees_logIf (perform_dumpTree id h)

/-- A report depends on the log only, and on the error. -/
theorem blind_logFailure (e : Raised) : Blind r i (logFailure e) :=
  blind_iff_keeps.mpr (keeps_logFailure (closed_pair r i).toRobust e)

end Runner

/-! ## Methods of the embedding program -/

namespace Host

/-- **A host whose methods do not depend on what was logged**, and which leave every runner its
interpreter, given that what they invoke does so too. -/
def Tame (host : Host) : Prop :=
  ∀ (r i : Nat) (invoke : Invoke), (∀ v arguments, Blind r i (invoke v arguments)) →
    ∀ m arguments, Blind r i (host invoke m arguments)

theorem Tame.keeps {host : Host} (h : host.Tame) : host.Keeps (fun _ => True) (Pair r i) := by
  intro invoke hinvoke m arguments _
  refine blind_iff_keeps.mp (h r i invoke (fun v vs => ?_) m arguments)
  exact blind_iff_keeps.mpr (hinvoke v vs trivial fun _ _ => trivial)

/-- **Invoking the methods of a tame host** does not depend on what was logged, however deep they
call each other. -/
theorem Tame.blind_invoke {host : Host} (h : host.Tame) (depth : Nat) (v : Value)
    (arguments : List Value) : Blind r i (host.invoke depth v arguments) :=
  blind_iff_keeps.mpr (keeps_invoke (closed_pair r i).toRobust h.keeps depth v arguments trivial
    fun _ _ => trivial)

/-- **Every host whose methods use a session by its operations is tame.** -/
theorem tame_ofProcedures (procedure : HostMethod → List Value → Procedure) :
    (ofProcedures procedure).Tame := by
  intro r i invoke hinvoke m arguments
  refine blind_iff_keeps.mpr (keeps_ofProcedures (closed_pair r i)
    (fun m vs _ => (procedure m vs).uses_within) invoke (fun v vs _ _ => ?_) m arguments
    fun _ _ => trivial)
  exact blind_iff_keeps.mp (hinvoke v vs)

end Host

end CallScript
