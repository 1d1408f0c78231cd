import CallScript.Proofs.Presentability
import Mathlib.Logic.Function.Basic

/-!
# The log does not interfere

Settings decide what is logged: an interpreter may trace its calls, a runner may dump what it reads,
and all records pass a common level. None of this makes a difference to a run. From two sessions
that differ in these settings a run answers or raises the same, and leaves sessions that differ in
these settings and in the log alone (`Action.IgnoresLogging`).

What a run logs under different settings can then be compared record by record. Each record that a
run makes is there under all settings or hangs on one switch, the traces on that of their
interpreter and the dumps on that of their runner. So there is one list of *entries*, records with
their switches, from which the log under any setting of all switches is read off (`Entry.shown`):
the same records in the same order, less those whose switch is off. An invariant of the family of
all settings says so (`Switched`), and evaluating, running and invoking keep it, because a switch is
only ever asked for the records that hang on it (`Switched.logIf_switch`).

The entries that hang on no switch are neither traces nor dumps, if the methods of the host make
none and turn none on. This is seen in the run with all switches off (`Silent`).

All this is said of runs that meet only values that can be written, since a trace of any other value
raises an error. The values of a run belong to a class `W` then, one that a run does not leave by
itself (`Value.Hereditary`). The largest such class that is used here are the presentable values
(`Value.isPresentable`).
-/

namespace CallScript

open CallScript.Action

variable {α : Type}

variable {W : Value → Prop}

/-! ## Runs that differ in what is logged -/

/-- **An action that does not depend on what only the log shows**, as long as it meets only values
of a class. What it answers has a property. -/
def Action.IgnoresLogging (W : Value → Prop) (P : α → Prop) (A : Action α) : Prop :=
  ∀ s t : Session, s.unobserved = t.unobserved → s.Stocks W →
    (A.perform s).1 = (A.perform t).1 ∧ (∀ a, (A.perform s).1 = .ok a → P a) ∧
      (A.perform s).2.unobserved = (A.perform t).2.unobserved ∧ (A.perform s).2.Stocks W

/-- A host whose methods do not depend on what only the log shows and bring in only values of a
class, given that the same is true of what they invoke. -/
def Host.IgnoresLogging (W : Value → Prop) (host : Host) : Prop :=
  ∀ invoke : Invoke, (∀ v arguments, W v → (∀ a ∈ arguments, W a) →
      (invoke v arguments).IgnoresLogging W W) →
    ∀ m arguments, (∀ a ∈ arguments, W a) → (host invoke m arguments).IgnoresLogging W W

/-- Whether the values of a session belong to a class is not a matter of the log. -/
theorem Session.Stocks.of_unobserved {s t : Session} (hs : s.Stocks W)
    (h : s.unobserved = t.unobserved) : t.Stocks W where
  bound {j} name v hv := by
    have hbound : (s.interpreter j).bindings.get? name = some v := by
      rw [← s.bindings_unobserved, h, t.bindings_unobserved]
      exact hv
    exact hs.bound hbound
  registered {id} name m hm := by
    have hregistered : (s.unobserved.registry id).get? name = some m := by
      rw [h]
      exact hm
    exact hs.registered hregistered

/-- Variables may be bound to values of the class. -/
theorem Session.Stocks.rebound {s : Session} (hs : s.Stocks W) (j : Nat)
    {b : Table Scalar Value} (hb : ∀ name v, b.get? name = some v → W v) :
    (s.setInterpreter j { s.interpreter j with bindings := b }).Stocks W where
  bound {i} name v hv := by
    have hbindings : ((s.setInterpreter j { s.interpreter j with bindings := b }).interpreter
        i).bindings = b ∨ ((s.setInterpreter j { s.interpreter j with bindings := b }).interpreter
        i).bindings = (s.interpreter i).bindings := by
      unfold interpreter setInterpreter
      rw [List.getElem?_set]
      split
      · split
        · exact .inl rfl
        · next hi hlength =>
          rw [List.getElem?_eq_none (by omega)]
          exact .inr rfl
      · exact .inr rfl
    obtain hnew | hold := hbindings
    · exact hb name v (hnew ▸ hv)
    · exact hs.bound (hold ▸ hv)
  registered := hs.registered

/-- A registry may be replaced by one with methods of the class. -/
theorem Session.Stocks.setRegistry {s : Session} (hs : s.Stocks W) (id : Nat) {r : Registry}
    (hr : ∀ name m, r.get? name = some m → W m) : (s.setRegistry id r).Stocks W where
  bound := hs.bound
  registered {i} name m hm := by
    have hregistry : (s.setRegistry id r).registry i = r ∨
        (s.setRegistry id r).registry i = s.registry i := by
      unfold registry Session.setRegistry
      rw [List.getElem?_set]
      split
      · split
        · exact .inl rfl
        · next hi hlength =>
          rw [List.getElem?_eq_none (by omega)]
          exact .inr rfl
      · exact .inr rfl
    obtain hnew | hold := hregistry
    · exact hr name m (hnew ▸ hm)
    · exact hs.registered (hold ▸ hm)

/-- The families of sessions that only the log tells apart and whose values belong to a class. -/
structure Unobserved (W : Value → Prop) (ι : Type) (σ : ι → Session) : Prop where
  alike : ∀ k l, (σ k).unobserved = (σ l).unobserved
  stocks : ∀ k, (σ k).Stocks W

/-- To ignore the log is to keep the pairs that only the log tells apart. -/
theorem Action.ignoresLogging_iff_keeps {A : Action α} {P : α → Prop} :
    A.IgnoresLogging W P ↔ Keeps (Unobserved W Bool) P fun _ => A := by
  constructor
  · intro h σ hσ
    have hpair := fun k => h _ _ (hσ.alike true k) (hσ.stocks true)
    refine ⟨(A.perform (σ true)).1, fun k => (hpair k).1.symm, (hpair true).2.1, ?_, fun k => ?_⟩
    · exact fun k l => (hpair k).2.2.1.symm.trans (hpair l).2.2.1
    · exact (hpair true).2.2.2.of_unobserved (hpair k).2.2.1
  · intro h s t hst hs
    have hunobserved : ∀ k : Bool, (if k then s else t).unobserved = t.unobserved := by
      intro k
      cases k with
      | true => exact hst
      | false => rfl
    have hσ : Unobserved W Bool fun k => if k then s else t :=
      ⟨fun k l => (hunobserved k).trans (hunobserved l).symm,
        fun k => hs.of_unobserved (hst.trans (hunobserved k).symm)⟩
    obtain ⟨o, ho, hP, hstate⟩ := h _ hσ
    exact ⟨(ho true).trans (ho false).symm, fun a ha => hP a ((ho true).symm.trans ha),
      hstate.alike true false, hstate.stocks true⟩

namespace Session

variable (s : Session) (j : Nat) (b : Table Scalar Value)

/-- Changing variables commutes with leaving the switches out. -/
theorem unswitched_rebound :
    (s.setInterpreter j { s.interpreter j with bindings := b }).unswitched
      = s.unswitched.setInterpreter j { s.unswitched.interpreter j with bindings := b } := by
  have hset : ∀ x y : Interpreter, (j < s.interpreters.length → { x with trace := .null } = y) →
      (s.interpreters.set j x).map (fun i => { i with trace := .null })
        = (s.interpreters.map fun i => { i with trace := .null }).set j y := by
    intro x y hxy
    rw [List.map_set]
    by_cases hj : j < s.interpreters.length
    · rw [hxy hj]
    · rw [List.set_eq_of_length_le, List.set_eq_of_length_le] <;> rw [List.length_map] <;> omega
  unfold unswitched setInterpreter
  dsimp only
  rw [hset _ _ fun hj => ?_]
  unfold interpreter
  rw [List.getElem?_map, List.getElem?_eq_getElem hj]
  rfl

/-- Binding variables has no part in what only the log shows. -/
theorem unobserved_rebound :
    (s.setInterpreter j { s.interpreter j with bindings := b }).unobserved
      = s.unobserved.setInterpreter j { s.unobserved.interpreter j with bindings := b } :=
  congrArg unleveled (s.unswitched_rebound j b)

theorem trace_rebound (i : Nat) :
    ((s.setInterpreter j { s.interpreter j with bindings := b }).interpreter i).trace
      = (s.interpreter i).trace := by
  unfold interpreter setInterpreter
  rw [List.getElem?_set]
  by_cases hj : j = i
  · rw [if_pos hj, hj]
    cases hi : s.interpreters[i]? with
    | none => rw [if_neg (by rw [List.getElem?_eq_none_iff] at hi; omega)]
    | some x => rw [if_pos (List.getElem?_eq_some_iff.mp hi).1]; rfl
  · rw [if_neg hj]

end Session

/-- The sessions that only the log tells apart, as an invariant. -/
theorem closed_unobserved (hW : Value.Hereditary W) (hwritable : ∀ v, W v → v.isWritable = true) :
    Closed (fun _ => True) W (Unobserved W Bool) where
  nonempty := ⟨true⟩
  hereditary := hW
  alike hσ := hσ.alike
  writes := .inl hwritable
  stocks hσ := hσ.stocks
  driven _ _ _ := trivial
  log {σ r} hσ _ := by
    refine ⟨fun k l => ?_, fun k => (hσ.stocks k).of_unobserved ((σ k).unobserved_log r).symm⟩
    rw [Session.unobserved_log, Session.unobserved_log]
    exact hσ.alike k l
  trace {σ r j} hσ _ _ := by
    refine ⟨fun k l => ?_, fun k => (hσ.stocks k).of_unobserved ((σ k).unobserved_logIf _ _).symm⟩
    rw [Session.unobserved_logIf, Session.unobserved_logIf]
    exact hσ.alike k l
  dump {σ} _ _ hσ _ := by
    refine ⟨fun k l => ?_, fun k => (hσ.stocks k).of_unobserved ((σ k).unobserved_logIf _ _).symm⟩
    rw [Session.unobserved_logIf, Session.unobserved_logIf]
    exact hσ.alike k l
  record {σ} m arguments hσ := by
    refine ⟨fun k l => ?_, fun k => ⟨(hσ.stocks k).bound, (hσ.stocks k).registered⟩⟩
    show ((Host.record m arguments).perform (σ k).unobserved).2
      = ((Host.record m arguments).perform (σ l).unobserved).2
    rw [hσ.alike k l]
  bindings {_} j {b} hb hσ := by
    refine ⟨fun k l => ?_, fun k => (hσ.stocks k).rebound j hb⟩
    rw [Session.unobserved_rebound, Session.unobserved_rebound, hσ.alike k l]
  registry {σ} id {r} hr hσ := by
    refine ⟨fun k l => ?_, fun k => (hσ.stocks k).setRegistry id hr⟩
    show (σ k).unobserved.setRegistry id r = (σ l).unobserved.setRegistry id r
    rw [hσ.alike k l]

/-- A host that does not depend on the log keeps the sessions that only the log tells apart. -/
theorem Host.IgnoresLogging.keeps {host : Host} (h : host.IgnoresLogging W) :
    host.Keeps W (Unobserved W Bool) := by
  intro invoke hinvoke m arguments hargs
  refine ignoresLogging_iff_keeps.mp (h invoke (fun v vs hv hvs => ?_) m arguments hargs)
  exact ignoresLogging_iff_keeps.mpr (hinvoke v vs hv hvs)

/-! ## Switches -/

/-- What decides whether something is logged. -/
inductive Switch where
  | trace (interpreter : Nat)
  | dumps (runner : Nat)
deriving DecidableEq

/-- A session with its switches set. -/
def Session.switched (s : Session) (on : Switch → Value) : Session :=
  { s with
    interpreters := s.interpreters.mapIdx fun i x => { x with trace := on (.trace i) }
    runners := s.runners.mapIdx fun r x =>
      { x with settings := { x.settings with debug := on (.dumps r) } } }

/-- A record that is made if a switch is on, or in any case. -/
structure Entry where
  record : Record
  switch : Option Switch
  /-- The names of the methods that each registry had then: whether a setting counts as true may
  depend on them. -/
  methodsOf : Nat → List Scalar

namespace Entry

/-- Whether an entry is logged. -/
def isShown (on : Switch → Value) (e : Entry) : Bool :=
  match e.switch with
  | none => true
  | some w => (on w).counts e.methodsOf

/-- **What is logged of some entries.** -/
def shown (on : Switch → Value) (entries : List Entry) : List Record :=
  (entries.filter (·.isShown on)).map (·.record)

/-- What hangs on the switch of an interpreter are its traces, and on that of a runner its dumps. -/
def Fits (e : Entry) : Prop :=
  match e.switch with
  | none => True
  | some (.trace _) => e.record.isTrace = true
  | some (.dumps _) => e.record.isDump = true

/-- What is shown of entries is shown part by part. -/
theorem shown_append (on : Switch → Value) (entries entries' : List Entry) :
    shown on (entries ++ entries') = shown on entries ++ shown on entries' := by
  rw [shown, List.filter_append, List.map_append]
  rfl

/-- Entries that hang on the same switch are shown all or not at all. -/
theorem shown_map {on : Switch → Value} {switch : Option Switch} {methodsOf : Nat → List Scalar}
    {b : Bool} (hb : ∀ r, isShown on ⟨r, switch, methodsOf⟩ = b) (rs : List Record) :
    shown on (rs.map fun r => ⟨r, switch, methodsOf⟩) = if b then rs else [] := by
  unfold shown
  rw [List.filter_map, List.map_map]
  show ((rs.filter fun r => isShown on ⟨r, switch, methodsOf⟩).map fun r => r) = _
  simp only [hb, List.map_id']
  cases b with
  | true => exact List.filter_true rs
  | false => exact List.filter_false rs

/-- **Turning a switch off** deletes what hangs on it, and nothing else. -/
theorem shown_update (on : Switch → Value) (w : Switch) (entries : List Entry) :
    shown (Function.update on w (.bool false)) entries
      = shown on (entries.filter (·.switch ≠ some w)) := by
  have hshown : ∀ e : Entry, e.isShown (Function.update on w (.bool false))
      = (e.isShown on && decide (e.switch ≠ some w)) := by
    intro e
    unfold isShown
    cases e.switch with
    | none => rfl
    | some w' =>
      by_cases hw : w' = w
      · rw [hw]
        simp
        rfl
      · simp [hw]
  unfold shown
  rw [List.filter_filter]
  simp only [hshown]

end Entry

/-- **The sessions of one run under all settings of the switches**: they are the same but for what
the switches make of them, their values belong to a class, and their logs are read off the same
entries. -/
structure Switched (W : Value → Prop) (before : List Record) (σ : (Switch → Value) → Session) :
    Prop where
  alike : ∀ on on', (σ on).unswitched = (σ on').unswitched
  stocks : ∀ on, (σ on).Stocks W
  /-- Each interpreter has its switch as setting, unless it has the same setting in all sessions. -/
  trace : ∀ i, (∀ on, ((σ on).interpreter i).trace = on (.trace i)) ∨
    ∃ v, ∀ on, ((σ on).interpreter i).trace = v
  dumps : ∀ r, (∀ on, ((σ on).runner r).settings.debug = on (.dumps r)) ∨
    ∃ v, ∀ on, ((σ on).runner r).settings.debug = v
  made : ∃ made : List Entry, (∀ e ∈ made, e.Fits) ∧
    ∀ on, (σ on).records = before ++ Entry.shown on made

namespace Switched

variable {before : List Record} {σ : (Switch → Value) → Session}

theorem logger (h : Switched W before σ) (on on' : Switch → Value) :
    (σ on).logger = (σ on').logger := by
  show (σ on).unswitched.logger = (σ on').unswitched.logger
  rw [h.alike on on']

/-- Under all settings the same methods are registered. -/
theorem methodsOf (h : Switched W before σ) (on on' : Switch → Value) :
    (σ on).methodsOf = (σ on').methodsOf := by
  show (σ on).unswitched.methodsOf = (σ on').unswitched.methodsOf
  rw [h.alike on on']

/-- Adding to all logs what is shown of some entries. -/
theorem relog (h : Switched W before σ) {more : (Switch → Value) → List Record}
    (entries : List Entry) (hfits : ∀ e ∈ entries, e.Fits)
    (hmore : ∀ on, more on = Entry.shown on entries) :
    Switched W before fun on => { σ on with records := (σ on).records ++ more on } where
  alike := h.alike
  stocks on := ⟨(h.stocks on).bound, (h.stocks on).registered⟩
  trace := h.trace
  dumps := h.dumps
  made := by
    obtain ⟨made, hmade, hrecords⟩ := h.made
    refine ⟨made ++ entries, List.forall_mem_append.mpr ⟨hmade, hfits⟩, fun on => ?_⟩
    show (σ on).records ++ more on = _
    rw [hrecords, hmore, Entry.shown_append, List.append_assoc]

/-- Under all settings the same counts as true, and a record is made as often. -/
theorem logIf_eq (h : Switched W before σ) (flag : Value) (rs : List Record)
    (on on' : Switch → Value) :
    (σ on).logIf flag rs = { σ on with
      records := (σ on).records ++
        if flag.counts (σ on').methodsOf then rs.flatMap (σ on').logger.copies else [] } := by
  have hcopies : (σ on).logger.copies = (σ on').logger.copies := by rw [h.logger on on']
  rw [Session.logIf_eq, Session.truthy, h.methodsOf on on', hcopies]

/-- Logging by a flag that is the same in all sessions. -/
theorem logIf_same (h : Switched W before σ) {f : (Switch → Value) → Value} {v : Value}
    (hf : ∀ on, f on = v) (rs : List Record) :
    Switched W before fun on => (σ on).logIf (f on) rs := by
  -- what is handled and what counts as true is the same in all sessions, so one stands for all
  let s := σ fun _ => .null
  have hlog := fun on => h.logIf_eq v rs on fun _ => .null
  simp only [hf, hlog]
  cases v.counts s.methodsOf with
  | true =>
    refine h.relog ((rs.flatMap s.logger.copies).map fun r => ⟨r, none, s.methodsOf⟩) ?_ ?_
    · intro e he
      obtain ⟨r, -, rfl⟩ := List.mem_map.mp he
      trivial
    · exact fun on => (Entry.shown_map (b := true) (fun _ => rfl) _).symm
  | false => exact h.relog [] (by simp) fun _ => rfl

/-- Logging by a switch: what is logged hangs on it. -/
theorem logIf_switch (h : Switched W before σ) {f : (Switch → Value) → Value} {w : Switch}
    (hf : ∀ on, f on = on w) {rs : List Record}
    (hfits : ∀ r ∈ rs, ∀ methodsOf, Entry.Fits ⟨r, some w, methodsOf⟩) :
    Switched W before fun on => (σ on).logIf (f on) rs := by
  let s := σ fun _ => .null
  have hlog := fun on => h.logIf_eq (on w) rs on fun _ => .null
  simp only [hf, hlog]
  refine h.relog ((rs.flatMap s.logger.copies).map fun r => ⟨r, some w, s.methodsOf⟩) ?_ ?_
  · intro e he
    obtain ⟨r, hr, rfl⟩ := List.mem_map.mp he
    obtain ⟨r', hr', hcopy⟩ := List.mem_flatMap.mp hr
    rw [Logger.eq_of_mem_copies hcopy]
    exact hfits r' hr' _
  · exact fun on => (Entry.shown_map (b := (on w).counts s.methodsOf) (fun _ => rfl) _).symm

/-- A record that hangs on no switch is an entry of its own. -/
theorem log (h : Switched W before σ) (r : Record) : Switched W before fun on => (σ on).log r :=
  h.logIf_same (f := fun _ => .bool true) (fun _ => rfl) [r]

/-- Changing all sessions in a way that does not depend on the switches and keeps them and the
log. -/
theorem map (h : Switched W before σ) {f : Session → Session}
    (hf : ∀ s, (f s).unswitched = f s.unswitched)
    (htrace : ∀ s i, ((f s).interpreter i).trace = (s.interpreter i).trace)
    (hrunners : ∀ s, (f s).runners = s.runners) (hrecords : ∀ s, (f s).records = s.records)
    (hstocks : ∀ {s : Session}, s.Stocks W → (f s).Stocks W) :
    Switched W before fun on => f (σ on) where
  alike on on' := by rw [hf, hf, h.alike on on']
  stocks on := hstocks (h.stocks on)
  trace i := by
    simp only [htrace]
    exact h.trace i
  dumps r := by
    unfold Session.runner
    simp only [hrunners]
    exact h.dumps r
  made := by
    simp only [hrecords]
    exact h.made

end Switched

/-- The sessions of one run under all settings of the switches, as an invariant. -/
theorem closed_switched (hW : Value.Hereditary W) (hwritable : ∀ v, W v → v.isWritable = true)
    (before : List Record) : Closed (fun _ => True) W (Switched W before) where
  nonempty := ⟨fun _ => .null⟩
  hereditary := hW
  alike hσ on on' := congrArg Session.unleveled (hσ.alike on on')
  writes := .inl hwritable
  stocks hσ := hσ.stocks
  driven _ _ _ := trivial
  log hσ _ := hσ.log _
  trace {σ r j} hσ _ hr := by
    obtain htrace | ⟨v, htrace⟩ := hσ.trace j
    · refine hσ.logIf_switch htrace fun x hx _ => ?_
      rw [List.mem_singleton.mp hx]
      exact hr
    · exact hσ.logIf_same htrace [r]
  dump id rs hσ hrs := by
    obtain hdumps | ⟨v, hdumps⟩ := hσ.dumps id
    · exact hσ.logIf_switch hdumps fun x hx _ => hrs x hx
    · exact hσ.logIf_same hdumps rs
  record m arguments hσ := hσ.map (f := fun s => ((Host.record m arguments).perform s).2)
    (fun _ => rfl) (fun _ _ => rfl) (fun _ => rfl) (fun _ => rfl) fun h => ⟨h.bound, h.registered⟩
  bindings {_} j {b} hb hσ :=
    hσ.map (f := fun s => s.setInterpreter j { s.interpreter j with bindings := b })
      (fun s => s.unswitched_rebound j b) (fun s i => s.trace_rebound j b i) (fun _ => rfl)
      (fun _ => rfl) fun h => h.rebound j hb
  registry {_} id {r} hr hσ := hσ.map (f := fun s => s.setRegistry id r)
    (fun _ => rfl) (fun _ _ => rfl) (fun _ => rfl) (fun _ => rfl) fun h => h.setRegistry id hr

/-- A host that makes no difference between settings of the switches: it answers the same, logs the
same and leaves the switches as they are or sets them the same. It brings in only values of a
class. -/
def Host.IgnoresSwitches (W : Value → Prop) (host : Host) : Prop :=
  ∀ before, host.Keeps W (Switched W before)

namespace Session

/-- What is forgotten need not be set. -/
theorem map_mapIdx_of {β γ : Type} {f : Nat → α → β} {g : β → γ} {g' : α → γ}
    (h : ∀ i a, g (f i a) = g' a) (xs : List α) : (xs.mapIdx f).map g = xs.map g' := by
  refine List.ext_getElem? fun i => ?_
  rw [List.getElem?_map, List.getElem?_mapIdx, List.getElem?_map, Option.map_map]
  exact congrArg (Option.map · xs[i]?) (funext (h i))

theorem unswitched_switched (s : Session) (on : Switch → Value) :
    (s.switched on).unswitched = s.unswitched := by
  have hinterpreters : (s.interpreters.mapIdx fun i x => { x with trace := on (.trace i) }).map
        (fun x => { x with trace := .null })
      = s.interpreters.map fun x => { x with trace := .null } :=
    map_mapIdx_of (by intros; rfl) _
  have hrunners : (s.runners.mapIdx fun r x =>
        { x with settings := { x.settings with debug := on (.dumps r) } }).map
      (fun x => { x with settings := { x.settings with debug := .null } })
        = s.runners.map fun x => { x with settings := { x.settings with debug := .null } } :=
    map_mapIdx_of (by intros; rfl) _
  unfold unswitched switched
  dsimp only
  rw [hinterpreters, hrunners]

/-- A switch of an interpreter sets its trace. -/
theorem trace_switched (s : Session) {i : Nat} (hi : i < s.interpreters.length)
    (on : Switch → Value) : ((s.switched on).interpreter i).trace = on (.trace i) := by
  unfold interpreter switched
  rw [List.getElem?_mapIdx, List.getElem?_eq_getElem hi]
  rfl

/-- A switch of a runner sets its dumps. -/
theorem debug_switched (s : Session) {r : Nat} (hr : r < s.runners.length)
    (on : Switch → Value) : ((s.switched on).runner r).settings.debug = on (.dumps r) := by
  unfold runner switched
  rw [List.getElem?_mapIdx, List.getElem?_eq_getElem hr]
  rfl

end Session

/-- A session under all settings of its switches. -/
theorem Session.switched_switched {s : Session} (hs : s.Stocks W) :
    Switched W s.records s.switched where
  alike on on' := by rw [unswitched_switched, unswitched_switched]
  stocks on := hs.of_unobserved (congrArg unleveled (s.unswitched_switched on).symm)
  trace i := by
    by_cases hi : i < s.interpreters.length
    · exact .inl (s.trace_switched hi)
    · refine .inr ⟨(default : Interpreter).trace, fun on => ?_⟩
      unfold interpreter switched
      rw [List.getElem?_eq_none (by rw [List.length_mapIdx]; omega)]
      rfl
  dumps r := by
    by_cases hr : r < s.runners.length
    · exact .inl (s.debug_switched hr)
    · refine .inr ⟨(default : Runner).settings.debug, fun on => ?_⟩
      unfold runner switched
      rw [List.getElem?_eq_none (by rw [List.length_mapIdx]; omega)]
      rfl
  made := ⟨[], by simp, fun _ => (List.append_nil _).symm⟩

/-! ## All switches off -/

/-- A session with all switches off, in which no trace and no dump was logged since some time. The
first `n` interpreters are those that code runs in. -/
structure Session.Silent (n : Nat) (before : List Record) (s : Session) : Prop where
  trace : ∀ i < n, (s.interpreter i).trace = .bool false
  dumps : ∀ r, (s.runner r).settings.debug = .bool false
  driven : ∀ r, (s.runner r).interpreter < n
  made : ∃ made, s.records = before ++ made ∧ ∀ r ∈ made, r.isPlain = true

/-- The invariant of silence. -/
def Silent (n : Nat) (before : List Record) (σ : Unit → Session) : Prop :=
  (σ ()).Silent n before

/-- Silence as an invariant. With a single session it does not matter which values can be written.
-/
theorem closed_silent (n : Nat) (before : List Record) :
    Closed (· < n) (fun _ => True) (Silent n before) where
  nonempty := ⟨()⟩
  hereditary := Value.hereditary_true
  alike _ _ _ := rfl
  writes := .inr fun _ _ _ _ _ => rfl
  stocks {σ} _ k := (σ k).stocks_true
  driven hσ _ id := hσ.driven id
  log {σ r} hσ hr := by
    refine ⟨hσ.trace, hσ.dumps, hσ.driven, ?_⟩
    obtain ⟨made, hrecords, hmade⟩ := hσ.made
    refine ⟨made ++ (σ ()).logger.copies r, ?_, List.forall_mem_append.mpr ⟨hmade, ?_⟩⟩
    · show (σ ()).records ++ (σ ()).logger.copies r = _
      rw [hrecords, List.append_assoc]
    · exact fun x hx => Logger.eq_of_mem_copies hx ▸ hr
  trace {σ r j} hσ hj _ := by
    show ((σ ()).logIf ((σ ()).interpreter j).trace [r]).Silent n before
    rw [hσ.trace j hj]
    exact hσ
  dump {σ} id rs hσ _ := by
    show ((σ ()).logIf ((σ ()).runner id).settings.debug rs).Silent n before
    rw [hσ.dumps id]
    exact hσ
  record _ _ hσ := ⟨hσ.trace, hσ.dumps, hσ.driven, hσ.made⟩
  bindings {_} j {b} _ hσ := ⟨fun i hi => by rw [Session.trace_rebound]; exact hσ.trace i hi,
    hσ.dumps, hσ.driven, hσ.made⟩
  registry _ _ _ hσ := ⟨hσ.trace, hσ.dumps, hσ.driven, hσ.made⟩

/-- A host that makes no traces and dumps itself and turns no switch on, given that what it invokes
does not. -/
def Host.Discreet (n : Nat) (host : Host) : Prop :=
  ∀ before, host.Keeps (fun _ => True) (Silent n before)

namespace Host

/-! ## Methods that use a session by its operations -/

variable {procedure : HostMethod → List Value → Procedure}

/-- **A host made of procedures does not depend on the log**, if its operations bring in only values
of the class. -/
theorem ignoresLogging_ofProcedures (hW : Value.Hereditary W)
    (hwritable : ∀ v, W v → v.isWritable = true)
    (h : ∀ m arguments, (∀ a ∈ arguments, W a) →
      (procedure m arguments).Uses (Operation.Within (fun _ => True) W) W) :
    (ofProcedures procedure).IgnoresLogging W := by
  intro invoke hinvoke m arguments hargs
  refine ignoresLogging_iff_keeps.mpr (keeps_ofProcedures (closed_unobserved hW hwritable) h
    invoke (fun v vs hv hvs => ?_) m arguments hargs)
  exact ignoresLogging_iff_keeps.mp (hinvoke v vs hv hvs)

theorem ignoresSwitches_ofProcedures (hW : Value.Hereditary W)
    (hwritable : ∀ v, W v → v.isWritable = true)
    (h : ∀ m arguments, (∀ a ∈ arguments, W a) →
      (procedure m arguments).Uses (Operation.Within (fun _ => True) W) W) :
    (ofProcedures procedure).IgnoresSwitches W :=
  fun before => keeps_ofProcedures (closed_switched hW hwritable before) h

/-- A host made of procedures makes no traces or dumps of its own. -/
theorem discreet_ofProcedures {n : Nat}
    (h : ∀ m arguments, (procedure m arguments).Uses
      (Operation.Within (· < n) fun _ => True) fun _ => True) :
    (ofProcedures procedure).Discreet n :=
  fun before => keeps_ofProcedures (closed_silent n before) fun m arguments _ => h m arguments

end Host

/-- With all switches off a session is silent. -/
theorem Session.silent_switched (s : Session) {r : Nat} (hr : r < s.runners.length)
    (hdriven : ∀ x ∈ s.runners, x.interpreter < s.interpreters.length) :
    (s.switched fun _ => .bool false).Silent s.interpreters.length s.records where
  trace i hi := s.trace_switched hi _
  dumps id := by
    by_cases hid : id < s.runners.length
    · exact s.debug_switched hid _
    · unfold runner switched
      rw [List.getElem?_eq_none (by rw [List.length_mapIdx]; omega)]
      rfl
  driven id := by
    unfold runner switched
    rw [List.getElem?_mapIdx]
    cases hid : s.runners[id]? with
    | none => exact (Nat.zero_le _).trans_lt (hdriven s.runners[r] (List.getElem_mem hr))
    | some x => exact hdriven x (List.mem_of_getElem? hid)
  made := ⟨[], (List.append_nil _).symm, by simp⟩

/-! ## Runs -/

section

variable {host : Host} (depth : Nat) (r : Nat) (source : String)

/-- **A run does not depend on what only the log shows.** -/
theorem Runner.ignoresLogging_run (hW : Value.Hereditary W)
    (hwritable : ∀ v, W v → v.isWritable = true) (hhost : host.IgnoresLogging W) :
    (run (host.invoke depth) r source).IgnoresLogging W fun _ => True := by
  have hI := (closed_unobserved hW hwritable).toRobust
  exact ignoresLogging_iff_keeps.mpr
    (keeps_run hI (Host.keeps_invoke hI hhost.keeps depth) r source)

/-- **The logs of a run under all settings of the switches** are read off one list of entries. -/
theorem Runner.exists_entries_run (hW : Value.Hereditary W)
    (hwritable : ∀ v, W v → v.isWritable = true) (hhost : host.IgnoresSwitches W) {s : Session}
    (hs : s.Stocks W) :
    ∃ made : List Entry, (∀ e ∈ made, e.Fits) ∧
      ∀ on, ((run (host.invoke depth) r source).perform (s.switched on)).2.records
        = s.records ++ Entry.shown on made := by
  have hI := (closed_switched hW hwritable s.records).toRobust
  obtain ⟨-, -, -, hswitched⟩ := keeps_run hI (Host.keeps_invoke hI (hhost s.records) depth) r
    source s.switched (Session.switched_switched hs)
  exact hswitched.made

/-- With all switches off a run makes neither traces nor dumps. -/
theorem Runner.exists_plain_run {s : Session} (hhost : host.Discreet s.interpreters.length)
    (hr : r < s.runners.length)
    (hdriven : ∀ x ∈ s.runners, x.interpreter < s.interpreters.length) :
    ∃ made, ((run (host.invoke depth) r source).perform
        (s.switched fun _ => .bool false)).2.records = s.records ++ made ∧
      ∀ x ∈ made, x.isPlain = true := by
  have hI := (closed_silent s.interpreters.length s.records).toRobust
  obtain ⟨-, -, -, hsilent⟩ := keeps_run hI (Host.keeps_invoke hI (hhost s.records) depth) r source
    (fun _ => s.switched fun _ => .bool false) (s.silent_switched hr hdriven)
  exact hsilent.made

end

/-- **Logging does not interfere with running.** Let the values that a run meets belong to a class
of values that can be written, and let a host not read what only the log shows. Then a run from two
sessions that differ in that alone, the traces of interpreters, the dumps and the log levels of
runners, the level of the log and what was logged, answers or raises the same. It invokes the same
methods with the same arguments in the same order, and leaves the same variables, the same
registries and all else the same but for what only the log shows.

And let a host make no difference between settings of the switches. Then there is one list of
entries from which what a run logs is read off under every setting of the switches:

* on the switch of an interpreter hang traces of calls only, and on that of a runner dumps only;
* turning a switch off deletes from the log exactly the entries that hang on it;
* nothing else is a trace or a dump, if the host makes none itself and turns none on. -/
theorem run_is_unaffected_by_logging (W : Value → Prop) (hW : Value.Hereditary W)
    (hwritable : ∀ v, W v → v.isWritable = true) (host : Host) (depth r : Nat) (source : String) :
    (host.IgnoresLogging W → ∀ s t : Session, s.unobserved = t.unobserved → s.Stocks W →
      let first := (Runner.run (host.invoke depth) r source).perform s
      let second := (Runner.run (host.invoke depth) r source).perform t
      first.1 = second.1 ∧ first.2.invocations = second.2.invocations ∧
      (∀ i, (first.2.interpreter i).bindings = (second.2.interpreter i).bindings) ∧
      first.2.registries = second.2.registries ∧ first.2.unobserved = second.2.unobserved) ∧
    (host.IgnoresSwitches W → ∀ s : Session, s.Stocks W →
      ∃ made : List Entry, (∀ e ∈ made, e.Fits) ∧
      (∀ on, ((Runner.run (host.invoke depth) r source).perform (s.switched on)).2.records
        = s.records ++ Entry.shown on made) ∧
      (∀ on w, ((Runner.run (host.invoke depth) r source).perform
          (s.switched (Function.update on w (.bool false)))).2.records
        = s.records ++ Entry.shown on (made.filter (·.switch ≠ some w))) ∧
      (host.Discreet s.interpreters.length → r < s.runners.length →
        (∀ x ∈ s.runners, x.interpreter < s.interpreters.length) →
        ∀ e ∈ made, e.switch = none → e.record.isPlain = true)) := by
  refine ⟨fun hhost s t hst hs => ?_, fun hhost s hs => ?_⟩
  · obtain ⟨hresult, -, hstate, -⟩ :=
      Runner.ignoresLogging_run depth r source hW hwritable hhost s t hst hs
    have hinvocations := congrArg Session.invocations hstate
    have hregistries := congrArg Session.registries hstate
    refine ⟨hresult, hinvocations, fun i => ?_, hregistries, hstate⟩
    rw [← Session.bindings_unobserved, hstate, Session.bindings_unobserved]
  · obtain ⟨made, hfits, hrecords⟩ :=
      Runner.exists_entries_run depth r source hW hwritable hhost hs
    refine ⟨made, hfits, hrecords, fun on w => ?_, fun hdiscreet hr hdriven e he hswitch => ?_⟩
    · rw [hrecords, Entry.shown_update]
    · -- such an entry is still there with all switches off, where all that is made is plain
      obtain ⟨plain, hplain, hisPlain⟩ :=
        Runner.exists_plain_run depth r source hdiscreet hr hdriven
      rw [hrecords, List.append_cancel_left_eq] at hplain
      refine hisPlain e.record ?_
      rw [← hplain]
      refine List.mem_map.mpr ⟨e, List.mem_filter.mpr ⟨he, ?_⟩, rfl⟩
      rw [Entry.isShown, hswitch]

/-- A host whose one method binds `x` to what it is given and calls itself in a new run. -/
def echoingHost : Host := Host.ofProcedures fun _ arguments =>
  .perform (.bind 0 (.text "x") (arguments.headD .null)) fun _ =>
    .perform (.run 0 "core.echo(x);") fun _ => .answer .null

/-- A session with such a method, in which all is logged. -/
def echoingSession : Session where
  registries := [Registry.enter {} ⟨.text "echo", rfl⟩ (.method ⟨0, "echo", false, none⟩) rfl .null]
  interpreters := [{ core := 0 }]
  runners := [{ settings := { debug := .bool true }, interpreter := 0 }]
  logger := { level := 10, handlers := 1, propagate := false }

/-- The same session, in which little is logged. -/
def quietSession : Session :=
  { echoingSession with
    interpreters := [{ core := 0, trace := .null }]
    runners := [{ settings := { logLevel := .text "error" }, interpreter := 0 }]
    logger := { level := 40, handlers := 1, propagate := false } }

theorem echoingSession_stocks : echoingSession.Stocks fun v => v.isPresentable = true where
  bound {j} name v hv := by
    match j with
    | 0 => cases hv
    | _ + 1 => cases hv
  registered {id} name m hm := by
    match id with
    | 0 =>
      change Table.valueIn? name [(.text "echo", .method ⟨0, "echo", false, none⟩)] = some m at hm
      obtain ⟨x, hx, -⟩ := Table.exists_mem_of_valueIn? hm
      cases List.mem_singleton.mp hx
      rfl
    | _ + 1 => cases hm

/-- Logging does not interfere with methods that call themselves. -/
theorem echo_is_unaffected_by_logging :
    let W := fun v : Value => v.isPresentable = true
    echoingHost.IgnoresLogging W ∧ echoingHost.IgnoresSwitches W ∧ echoingHost.Discreet 1 ∧
    echoingSession.unobserved = quietSession.unobserved ∧ echoingSession.Stocks W ∧
    (let first := (Runner.run (echoingHost.invoke 4) 0 "core.echo(1);").perform echoingSession
     let second := (Runner.run (echoingHost.invoke 4) 0 "core.echo(1);").perform quietSession
     first.1 = second.1 ∧ first.2.invocations = second.2.invocations) ∧
    ∃ made : List Entry, (∀ e ∈ made, e.Fits ∧ (e.switch = none → e.record.isPlain = true)) ∧
      ∀ on, ((Runner.run (echoingHost.invoke 4) 0 "core.echo(1);").perform
        (echoingSession.switched on)).2.records = Entry.shown on made := by
  intro W
  have hwritable : ∀ v, W v → v.isWritable = true := fun _ => Value.isWritable_of_isPresentable
  have huses : ∀ (_ : HostMethod) (arguments : List Value), (∀ a ∈ arguments, W a) →
      (Host.Procedure.perform (.bind 0 (.text "x") (arguments.headD .null)) fun _ =>
        .perform (.run 0 "core.echo(x);") fun _ => .answer .null).Uses
        (Host.Operation.Within (fun _ => True) W) W := by
    intro _ arguments hargs
    refine ⟨?_, fun _ _ => ⟨trivial, fun _ _ => rfl⟩⟩
    cases arguments with
    | nil => exact rfl
    | cons a _ => exact hargs a List.mem_cons_self
  have hlogging : echoingHost.IgnoresLogging W :=
    Host.ignoresLogging_ofProcedures Value.hereditary_isPresentable hwritable huses
  have hswitches : echoingHost.IgnoresSwitches W :=
    Host.ignoresSwitches_ofProcedures Value.hereditary_isPresentable hwritable huses
  have hdiscreet : echoingHost.Discreet 1 :=
    Host.discreet_ofProcedures fun _ _ => ⟨trivial, fun _ _ => ⟨trivial, fun _ _ => trivial⟩⟩
  have hs := echoingSession_stocks
  obtain ⟨hfirst, hsecond⟩ := run_is_unaffected_by_logging W Value.hereditary_isPresentable
    hwritable echoingHost 4 0 "core.echo(1);"
  obtain ⟨hresult, hinvocations, -⟩ := hfirst hlogging echoingSession quietSession rfl hs
  obtain ⟨made, hfits, hrecords, -, hplain⟩ := hsecond hswitches echoingSession hs
  refine ⟨hlogging, hswitches, hdiscreet, rfl, hs, ⟨hresult, hinvocations⟩, made,
    fun e he => ?_, hrecords⟩
  exact ⟨hfits e he, hplain hdiscreet (by decide) (by simp [echoingSession]) e he⟩

end CallScript
