import CallScript.Proofs.Invariants
import Mathlib.Data.List.Induction

/-!
# What a whole session leaves as it was

An embedding program binds and clears variables, evaluates trees and runs sources, in any order and
in any of its interpreters. Evaluating and running may do anything to a session through the methods
that they call, but they do nothing by themselves: if the methods leave variables and registries
alone, so do they (`Step.frames`).

So after a session the variables of an interpreter are a matter of its own bindings and clearings
alone. They are the table of its writes since it was last cleared (`Step.foldl_effect`), whatever
was run in between, whether it succeeded, and whatever was done to other interpreters. Such a table
has the names in the order in which they were first written (`Table.names_ofList`), each once
(`Table.pairwise_firstNames`), and for each name the value that was written last
(`Table.get?_ofList`).
-/

namespace CallScript

/-! ## Tables of writes -/

namespace Table

variable {κ α : Type} [Key κ]

/-- Keys in the order in which they first occur. -/
def firstNames : List κ → List κ
  | [] => []
  | key :: keys => key :: (firstNames keys).filter (!Key.same key ·)

/-- The value that was last written under a key. -/
def lastWrite? (key : κ) (writes : List (κ × α)) : Option α :=
  (writes.reverse.find? (Key.same ·.1 key)).map (·.2)

/-- One more write is an insertion. -/
theorem ofList_concat (writes : List (κ × α)) (w : κ × α) :
    ofList (writes ++ [w]) = (ofList writes).insert w.1 w.2 := by
  rw [ofList, List.foldl_append]
  rfl

/-- **The last write wins.** -/
theorem get?_ofList (writes : List (κ × α)) (key : κ) :
    (ofList writes).get? key = lastWrite? key writes := by
  induction writes using List.reverseRecOn with
  | nil => rfl
  | append_singleton writes w ih =>
    rw [ofList_concat, get?_insert, ih, lastWrite?, lastWrite?, List.reverse_concat,
      List.find?_cons]
    cases Key.same w.1 key <;> rfl

/-- A new name goes last, and one that is known stays where it is. -/
theorem firstNames_concat (keys : List κ) (key : κ) :
    firstNames (keys ++ [key])
      = if keys.any (Key.same · key) then firstNames keys else firstNames keys ++ [key] := by
  induction keys with
  | nil => rfl
  | cons first keys ih =>
    rw [List.cons_append, firstNames, ih, List.any_cons, firstNames]
    cases hkeys : keys.any (Key.same · key) with
    | true => rw [Bool.or_true, if_pos rfl, if_pos rfl]
    | false =>
      rw [Bool.or_false, if_neg Bool.false_ne_true, List.filter_append]
      cases hfirst : Key.same first key <;> simp [hfirst]

/-- A table made by writes has the keys that were written. -/
theorem contains_ofList (writes : List (κ × α)) (key : κ) :
    (ofList writes).contains key = (writes.map (·.1)).any (Key.same · key) := by
  rw [contains, get?_ofList, lastWrite?, Option.isSome_map, List.isSome_find?, List.any_reverse,
    List.any_map]
  rfl

/-- **Names stand in the order of their first write.** -/
theorem names_ofList (writes : List (κ × α)) :
    (ofList writes).names = firstNames (writes.map (·.1)) := by
  induction writes using List.reverseRecOn with
  | nil => rfl
  | append_singleton writes w ih =>
    rw [ofList_concat, names_insert, contains_ofList, ih, List.map_append, List.map_singleton,
      firstNames_concat]

/-- **Every name stands once.** -/
theorem pairwise_firstNames (keys : List κ) :
    (firstNames keys).Pairwise fun x y => Key.same x y = false := by
  induction keys with
  | nil => exact .nil
  | cons key keys ih =>
    refine .cons (fun x hx => ?_) (ih.filter _)
    have hother := (List.mem_filter.mp hx).2
    rwa [Bool.not_eq_true'] at hother

/-- A key is not bound if it is none of the names. -/
theorem get?_eq_none_iff (t : Table κ α) (key : κ) :
    t.get? key = none ↔ ∀ x ∈ t.names, Key.same x key = false := by
  unfold get? names
  induction t.entries with
  | nil => simp [valueIn?]
  | cons entry rest ih =>
    rw [valueIn?, List.map_cons, List.forall_mem_cons, ← ih]
    cases Key.same entry.1 key <;> simp

end Table

/-! ## Frames -/

/-- **A session that a later one extends**: registries, and the cores and variables of interpreters,
are as before. There may be more of them. -/
structure Session.Frames (s t : Session) : Prop where
  registries : s.registries <+: t.registries
  interpreters : s.interpreters.map (fun x => (x.core, x.bindings))
    <+: t.interpreters.map fun x => (x.core, x.bindings)

namespace Session.Frames

variable {s t u : Session}

theorem refl (s : Session) : s.Frames s := ⟨List.prefix_refl _, List.prefix_refl _⟩

/-- What is left by one part of a run and by the next is left by both. -/
theorem trans (h : s.Frames t) (h' : t.Frames u) : s.Frames u :=
  ⟨h.registries.trans h'.registries, h.interpreters.trans h'.interpreters⟩

/-- What only the log shows makes no difference. -/
theorem of_unobserved (h : s.Frames t) (hu : u.unobserved = t.unobserved) : s.Frames u := by
  have hregistries : u.registries = t.registries := by
    show u.unobserved.registries = t.unobserved.registries
    rw [hu]
  have hview : ∀ x : Session, x.unobserved.interpreters.map (fun x => (x.core, x.bindings))
      = x.interpreters.map fun x => (x.core, x.bindings) := by
    intro x
    unfold unobserved unleveled unswitched
    rw [List.map_map]
    rfl
  constructor
  · rw [hregistries]
    exact h.registries
  · rw [← hview u, hu, hview]
    exact h.interpreters

theorem length_le (h : s.Frames t) : s.interpreters.length ≤ t.interpreters.length := by
  have hlength := h.interpreters.length_le
  rwa [List.length_map, List.length_map] at hlength

/-- The variables of an interpreter that was there before are as they were. -/
theorem bindings (h : s.Frames t) {i : Nat} (hi : i < s.interpreters.length) :
    (t.interpreter i).bindings = (s.interpreter i).bindings := by
  have hview := List.prefix_iff_getElem?.mp h.interpreters i (by rwa [List.length_map])
  rw [List.getElem?_map, List.getElem_map, Option.map_eq_some_iff] at hview
  obtain ⟨x, hx, hview⟩ := hview
  unfold Session.interpreter
  rw [hx, List.getElem?_eq_getElem hi]
  exact congrArg Prod.snd hview

end Session.Frames

theorem Session.registry_of_isPrefix {s t : Session} (h : s.registries <+: t.registries) {id : Nat}
    (hid : id < s.registries.length) : t.registry id = s.registry id := by
  unfold Session.registry
  rw [List.prefix_iff_getElem?.mp h id hid, List.getElem?_eq_getElem hid]

/-- Replacing an interpreter leaves the others alone. -/
theorem Session.interpreter_setInterpreter {s : Session} {i : Nat} (hi : i < s.interpreters.length)
    (j : Nat) (x : Interpreter) :
    (s.setInterpreter j x).interpreter i = if j = i then x else s.interpreter i := by
  unfold Session.interpreter setInterpreter
  rw [List.getElem?_set]
  by_cases hj : j = i
  · rw [if_pos hj, if_pos (by rwa [hj]), if_pos hj]
    rfl
  · rw [if_neg hj, if_neg hj]

open CallScript.Action

/-- The invariant of what a session leaves as it was. -/
def Framed (s : Session) (σ : Unit → Session) : Prop := s.Frames (σ ())

/-- **Leaving what was there before is a robust invariant**: evaluating only logs and invokes. -/
theorem robust_framed (s : Session) : Robust (fun _ => True) (fun _ => True) (Framed s) where
  nonempty := ⟨()⟩
  hereditary := Value.hereditary_true
  alike _ _ _ := rfl
  writes := .inr fun _ _ _ _ _ => rfl
  stocks _ _ := Session.stocks_true _
  driven _ _ _ := trivial
  log {σ r} hσ _ := hσ.of_unobserved ((σ ()).unobserved_log r)
  trace {σ r _} hσ _ _ := hσ.of_unobserved ((σ ()).unobserved_logIf _ [r])
  dump {σ} _ rs hσ _ := hσ.of_unobserved ((σ ()).unobserved_logIf _ rs)
  record _ _ hσ := ⟨hσ.registries, hσ.interpreters⟩

/-- An action that keeps the frame of a session leaves what is in it. -/
theorem Action.Keeps.frames {α : Type} {P : α → Prop} {A : Action α} {s : Session}
    (h : Keeps (Framed s) P fun _ => A) : s.Frames (A.perform s).2 := by
  obtain ⟨-, -, -, hframes⟩ := h (fun _ => s) (.refl s)
  exact hframes

/-- An action that leaves every session as it was. -/
def Action.Leaves {α : Type} (A : Action α) : Prop := ∀ s : Session, s.Frames (A.perform s).2

theorem Action.Leaves.keeps {α : Type} {A : Action α} (h : A.Leaves) (s : Session) :
    Keeps (Framed s) (fun _ => True) fun _ => A :=
  fun σ hσ => ⟨(A.perform (σ ())).1, fun _ => rfl, fun _ _ => trivial, hσ.trans (h (σ ()))⟩

/-! ## Methods that leave a session as it was -/

namespace Host

/-- **A host whose methods neither bind nor clear variables nor change registries**, given that what
they invoke does not. -/
def Modest (host : Host) : Prop :=
  ∀ invoke : Invoke, (∀ v arguments, (invoke v arguments).Leaves) →
    ∀ m arguments, (host invoke m arguments).Leaves

/-- A modest host leaves what it finds, at any depth. -/
theorem Modest.leaves_invoke {host : Host} (h : host.Modest) (depth : Nat) (v : Value)
    (arguments : List Value) : (host.invoke depth v arguments).Leaves := by
  induction depth generalizing v arguments with
  | zero => exact fun s => Session.Frames.refl s
  | succ depth ih =>
    intro s
    refine Action.Keeps.frames (P := fun _ => True) ?_
    cases v with
    | method m =>
      refine Action.Keeps.bind (A := fun _ => record m arguments) (P := fun _ => True) ?_
        fun _ _ => (h _ ih m arguments).keeps s
      exact .of_change (fun _ _ _ => rfl) fun _ hσ => (robust_framed s).record m arguments hσ
    | inherited which names attributes => exact keeps_ofForeign fun _ _ => trivial
    | _ => exact keeps_throw _

/-- Operations that do not bind or clear variables or change registries. -/
def Operation.Reading : Operation → Prop
  | .bind _ _ _ => False
  | .clear _ => False
  | .add _ _ _ _ => False
  | .remove _ _ => False
  | _ => True

/-- Methods that only read, invoke and run are modest. -/
theorem modest_ofProcedures {procedure : HostMethod → List Value → Procedure}
    (h : ∀ m arguments, (procedure m arguments).Uses Operation.Reading fun _ => True) :
    (ofProcedures procedure).Modest := by
  intro invoke hinvoke m arguments s
  have hI := robust_framed s
  have hany : ∀ vs : List Value, ∀ v ∈ vs, True := fun _ _ _ => trivial
  refine (keeps_ofProcedures_of_uses (fun invoke hinvoke o ho => ?_) (fun m vs _ => h m vs) invoke
    (fun v vs _ _ => (hinvoke v vs).keeps s) m arguments (hany arguments)).frames
  cases o with
  | lookup interpreter name => exact Interpreter.keeps_lookup hI interpreter name
  | call registry name vs => exact Core.keeps_call hI hinvoke registry name (hany vs)
  | invoke v vs => exact hinvoke v vs trivial (hany vs)
  | interpret interpreter program =>
    exact (Interpreter.keeps_interpret hI hinvoke trivial (Node.holds_true program)).bind
      fun _ _ => keeps_pure trivial
  | run runner source =>
    exact (Runner.keeps_run hI hinvoke runner source).bind fun _ _ => keeps_pure trivial
  | _ => exact ho.elim

end Host

/-! ## Steps of a session -/

/-- What an embedding program does with its interpreters and runners. -/
inductive Step where
  | bind (interpreter : Nat) (name : Scalar) (v : Value)
  | clear (interpreter : Nat)
  | evaluate (interpreter : Nat) (node : Node)
  | interpret (interpreter : Nat) (program : Node)
  | run (runner : Nat) (source : String)

namespace Step

/-- The session after a step, whether it succeeded or raised. -/
def perform (invoke : Invoke) (s : Session) : Step → Session
  | bind i name v => ((Interpreter.bind i (.scalar name) v).perform s).2
  | clear i => ((Interpreter.clear i).perform s).2
  | evaluate i node => ((Interpreter.evaluate invoke i node).perform s).2
  | interpret i program => ((Interpreter.interpret invoke i program).perform s).2
  | run r source => ((Runner.run invoke r source).perform s).2

/-- Whether a step runs code. -/
def runs : Step → Bool
  | bind _ _ _ => false
  | clear _ => false
  | _ => true

/-- Whether a step clears an interpreter. -/
def clears (i : Nat) : Step → Bool
  | clear j => j = i
  | _ => false

/-- What a step writes into an interpreter. -/
def write? (i : Nat) : Step → Option (Scalar × Value)
  | bind j name v => if j = i then some (name, v) else none
  | _ => none

/-- The variables of an interpreter after a step. -/
def effect (i : Nat) (bindings : Table Scalar Value) : Step → Table Scalar Value
  | bind j name v => if j = i then bindings.insert name v else bindings
  | clear j => if j = i then {} else bindings
  | _ => bindings

variable {invoke : Invoke}

/-- **Running code leaves variables and registries as they were**, if what it invokes does. -/
theorem frames (hinvoke : ∀ v arguments, (invoke v arguments).Leaves) {step : Step}
    (hstep : step.runs = true) (s : Session) : s.Frames (step.perform invoke s) := by
  have hI := robust_framed s
  have hkeeps : KeepsInvoking (fun _ => True) (Framed s) invoke :=
    fun v arguments _ _ => (hinvoke v arguments).keeps s
  cases step with
  | evaluate i node =>
    exact (Interpreter.keeps_evaluate hI hkeeps trivial node (Node.holds_true node)).frames
  | interpret i program =>
    exact (Interpreter.keeps_interpret hI hkeeps trivial (Node.holds_true program)).frames
  | run r source => exact (Runner.keeps_run hI hkeeps r source).frames
  | _ => cases hstep

theorem perform_bind_eq (j : Nat) (name : Scalar) (v : Value) (s : Session) :
    perform invoke s (bind j name v) = s.setInterpreter j
      { s.interpreter j with bindings := (s.interpreter j).bindings.insert name v } := by
  rw [perform, Interpreter.perform_bound]
  rfl

/-- **A step changes no registry, and no variables but those of the interpreter it is for.** -/
theorem registries_and_bindings_perform (hinvoke : ∀ v arguments, (invoke v arguments).Leaves)
    (step : Step) (s : Session) :
    s.registries <+: (step.perform invoke s).registries ∧
    s.interpreters.length ≤ (step.perform invoke s).interpreters.length ∧
    ∀ i < s.interpreters.length, ((step.perform invoke s).interpreter i).bindings
      = step.effect i (s.interpreter i).bindings := by
  have hruns : step.runs = true → ∀ b i, step.effect i b = b := by
    cases step <;> simp [runs, effect]
  by_cases hstep : step.runs = true
  · have hframes := frames hinvoke hstep s
    refine ⟨hframes.registries, hframes.length_le, fun i hi => ?_⟩
    rw [hruns hstep]
    exact hframes.bindings hi
  · cases step with
    | bind j name v =>
      rw [perform_bind_eq]
      refine ⟨List.prefix_refl _, List.length_set.ge, fun i hi => ?_⟩
      rw [Session.interpreter_setInterpreter hi, effect]
      split
      · next h => rw [h]
      · rfl
    | clear j =>
      refine ⟨List.prefix_refl _, List.length_set.ge, fun i hi => ?_⟩
      show ((s.setInterpreter j _).interpreter i).bindings = _
      rw [Session.interpreter_setInterpreter hi, effect]
      split <;> rfl
    | _ => exact absurd rfl hstep

/-- The session after steps, each of which may succeed or raise. -/
def after (invoke : Invoke) (steps : List Step) (s : Session) : Session :=
  steps.foldl (perform invoke) s

/-- **What is left after some steps**: registries as they were, and in each interpreter the effects
of its own steps. The induction is on the steps, with the session left free. -/
theorem registries_and_bindings_after (hinvoke : ∀ v arguments, (invoke v arguments).Leaves)
    (steps : List Step) (s : Session) :
    s.registries <+: (after invoke steps s).registries ∧
    ∀ i < s.interpreters.length, ((after invoke steps s).interpreter i).bindings
      = steps.foldl (effect i) (s.interpreter i).bindings := by
  induction steps generalizing s with
  | nil => exact ⟨List.prefix_refl _, fun _ _ => rfl⟩
  | cons step steps ih =>
    obtain ⟨hregistries, hlength, hbindings⟩ := registries_and_bindings_perform hinvoke step s
    obtain ⟨hregistries', hbindings'⟩ := ih (step.perform invoke s)
    -- no step removes an interpreter, so the number stays in range for the steps that follow
    refine ⟨hregistries.trans hregistries', fun i hi => ?_⟩
    rw [List.foldl_cons, ← hbindings i hi]
    exact hbindings' i (hi.trans_le hlength)

/-- The steps since an interpreter was last cleared. -/
def sinceCleared (i : Nat) (steps : List Step) : List Step :=
  (steps.reverse.takeWhile (!·.clears i)).reverse

/-- **What was written into an interpreter since it was last cleared.** -/
def writes (i : Nat) (steps : List Step) : List (Scalar × Value) :=
  (sinceCleared i steps).filterMap (·.write? i)

/-- One more step adds its write, or clears all. -/
theorem writes_concat (i : Nat) (steps : List Step) (step : Step) :
    writes i (steps ++ [step])
      = if step.clears i then [] else writes i steps ++ (step.write? i).toList := by
  unfold writes sinceCleared
  rw [List.reverse_concat, List.takeWhile_cons]
  cases step.clears i with
  | true => rfl
  | false =>
    show List.filterMap _ (step :: _).reverse = _
    rw [List.reverse_cons, List.filterMap_append]
    cases h : step.write? i <;> simp [h]

/-- A step clears the variables, writes one of them, or leaves them alone. -/
theorem effect_eq (i : Nat) (bindings : Table Scalar Value) (step : Step) :
    effect i bindings step = if step.clears i then {}
      else match step.write? i with
        | some w => bindings.insert w.1 w.2
        | none => bindings := by
  cases step with
  | bind j name v => by_cases hj : j = i <;> simp [effect, clears, write?, hj]
  | clear j => by_cases hj : j = i <;> simp [effect, clears, write?, hj]
  | _ => rfl

/-- The variables are a table of writes, if there were none at the start or they were cleared. -/
theorem foldl_effect (i : Nat) (steps : List Step) {bindings : Table Scalar Value}
    (h : bindings = {} ∨ ∃ step ∈ steps, step.clears i = true) :
    steps.foldl (effect i) bindings = Table.ofList (writes i steps) := by
  induction steps using List.reverseRecOn with
  | nil =>
    obtain rfl | ⟨step, hstep, -⟩ := h
    · rfl
    · cases hstep
  | append_singleton steps step ih =>
    rw [List.foldl_append, List.foldl_cons, List.foldl_nil, writes_concat, effect_eq]
    by_cases hclears : step.clears i = true
    · rw [if_pos hclears, if_pos hclears]
      rfl
    · -- the step clears nothing, so the clearing, if there was one, came before it
      have hbefore : bindings = {} ∨ ∃ step ∈ steps, step.clears i = true := by
        refine h.imp_right fun ⟨x, hx, hxi⟩ => ⟨x, ?_, hxi⟩
        obtain hx | hx := List.mem_append.mp hx
        · exact hx
        · rw [List.mem_singleton.mp hx] at hxi
          exact absurd hxi hclears
      rw [if_neg hclears, if_neg hclears, ih hbefore]
      cases step.write? i with
      | none => rw [Option.toList_none, List.append_nil]
      | some w => exact (Table.ofList_concat _ w).symm

end Step

/-! ## Whole sessions -/

theorem Interpreter.lookup_scalar (bindings : Table Scalar Value) (name : Scalar) :
    lookup bindings (.scalar name) = .ok ((bindings.get? name).getD .undefined) := rfl

/-- The marker of an unbound variable is what a lookup gives for the names that are not bound, and
for those that it was bound to. -/
theorem Interpreter.lookup_eq_undefined_iff (bindings : Table Scalar Value) (name : Scalar) :
    lookup bindings (.scalar name) = .ok .undefined ↔
      (∀ x ∈ bindings.names, Key.same x name = false) ∨ bindings.get? name = some .undefined := by
  rw [lookup_scalar, ← Table.get?_eq_none_iff]
  cases bindings.get? name with
  | none => simp
  | some v => simp

/-- **What a whole session leaves.** Let no method of the host bind or clear variables or change
registries. Then after any steps, each of which may succeed or raise:

* every registry is as it was before;
* an interpreter that had no variables, or that was cleared, has the table of its own writes since
  then: the names in the order in which they were first written, each once, and each with the value
  that was written last, and the marker of an unbound variable is found for exactly the other names
  and those that it was written to;
* a step that runs code changes no registry and the variables of no interpreter. -/
theorem session_leaves_own_writes (host : Host) (hhost : host.Modest) (depth : Nat)
    (steps : List Step) (s : Session) :
    (∀ id < s.registries.length,
      (Step.after (host.invoke depth) steps s).registry id = s.registry id) ∧
    (∀ i < s.interpreters.length,
      (s.interpreter i).bindings = {} ∨ (∃ step ∈ steps, step.clears i = true) →
      let bindings := ((Step.after (host.invoke depth) steps s).interpreter i).bindings
      let writes := Step.writes i steps
      bindings = Table.ofList writes ∧
      bindings.names = Table.firstNames (writes.map (·.1)) ∧
      bindings.names.Pairwise (fun x y => Key.same x y = false) ∧
      ∀ name, Interpreter.lookup bindings (.scalar name)
          = .ok ((Table.lastWrite? name writes).getD .undefined) ∧
        (Interpreter.lookup bindings (.scalar name) = .ok .undefined ↔
          (∀ x ∈ bindings.names, Key.same x name = false) ∨
            Table.lastWrite? name writes = some .undefined)) ∧
    ∀ step : Step, step.runs = true → s.Frames (step.perform (host.invoke depth) s) := by
  have hinvoke := hhost.leaves_invoke depth
  obtain ⟨hregistries, hbindings⟩ := Step.registries_and_bindings_after hinvoke steps s
  refine ⟨fun id hid => Session.registry_of_isPrefix hregistries hid, fun i hi hfresh => ?_,
    fun step hstep => Step.frames hinvoke hstep s⟩
  dsimp only
  rw [hbindings i hi, Step.foldl_effect i steps hfresh]
  refine ⟨rfl, Table.names_ofList _, ?_, fun name => ⟨?_, ?_⟩⟩
  · rw [Table.names_ofList]
    exact Table.pairwise_firstNames _
  · rw [Interpreter.lookup_scalar, Table.get?_ofList]
  · rw [Interpreter.lookup_eq_undefined_iff, Table.get?_ofList]

/-- A host whose one method looks up `x` in the first interpreter and then raises. -/
def peekingHost : Host := Host.ofProcedures fun _ _ =>
  .perform (.lookup 0 (.text "x")) fun _ => .raise (.script Interpreter.incompleteCall)

/-- Two interpreters that share a core with such a method, and a runner of the second. -/
def peekingSession : Session where
  registries :=
    [Registry.enter {} ⟨.text "peek", rfl⟩ (.method ⟨0, "peek", false, none⟩) rfl .null]
  interpreters := [{ core := 0 }, { core := 0, bindings := .ofList [(.text "old", .null)] }]
  runners := [{ settings := {}, interpreter := 1 }]

/-- Binding, clearing and running in both interpreters. -/
def peekingSteps : List Step :=
  [.bind 0 (.text "x") (.int 1), .bind 1 (.text "x") (.int 2), .run 0 "core.peek(x);",
    .bind 0 (.text "y") .undefined, .clear 1, .bind 0 (.unresolved "x") (.int 3),
    .run 0 "nothing.here(", .bind 1 (.text "z") (.int 4)]

/-- The variables of both interpreters after these steps. -/
theorem peekingSteps_leave_own_writes :
    peekingHost.Modest ∧
    (peekingSession.interpreter 0).bindings = {} ∧
    (∃ step ∈ peekingSteps, step.clears 1 = true) ∧
    let t := Step.after (peekingHost.invoke 3) peekingSteps peekingSession
    t.registry 0 = peekingSession.registry 0 ∧
    (t.interpreter 0).bindings.entries = [(.text "x", .int 3), (.text "y", .undefined)] ∧
    (t.interpreter 1).bindings.entries = [(.text "z", .int 4)] := by
  have hhost : peekingHost.Modest :=
    Host.modest_ofProcedures fun _ _ => ⟨trivial, fun _ _ => trivial⟩
  have hcleared : ∃ step ∈ peekingSteps, step.clears 1 = true :=
    ⟨.clear 1, by simp [peekingSteps], rfl⟩
  obtain ⟨hregistries, hbindings, -⟩ :=
    session_leaves_own_writes peekingHost hhost 3 peekingSteps peekingSession
  obtain ⟨hfirst, -⟩ := hbindings 0 (by decide) (.inl rfl)
  obtain ⟨hsecond, -⟩ := hbindings 1 (by decide) (.inr hcleared)
  exact ⟨hhost, rfl, hcleared, hregistries 0 (by decide), congrArg Table.entries hfirst,
    congrArg Table.entries hsecond⟩

end CallScript
