import CallScript.Proofs.SessionFrame
import CallScript.Proofs.StatementOutcomes

/-!
# What scripts can reach

A script reaches the embedding program through its calls alone. What a call invokes is a method that
the core has under a name it lists, or one that a bound value exposes under a name it lists, at the
moment of the invocation (`Session.Exposes`). This is said without a trace of the invocations: ways
to invoke that differ only on what is not exposed make no difference to a script
(`Interpreter.evaluate_congr`), so a script never finds out that everything else is out of its reach
(`Interpreter.confine`).

This rests on what values expose. A value exposes a method only under a name that it lists
(`Value.listed_of_method?`). Registries and mappings list nothing else
(`Value.hasMethod_registry_iff`, `Value.hasMethod_mapping_iff`), but objects of the embedding
program may list names under which there is nothing to call. For registries the reason is that only
what can be called is ever registered (`Registry.sound`). Objects are asked for a method in the way
that all of them inherit: one that looks up its methods in a way of its own is not among the values
here.
-/

namespace CallScript

open CallScript.Action

/-! ## Names that are listed -/

namespace Scalar

theorem keyForm?_eq_text_iff {x : Scalar} {m : String} :
    x.keyForm? = some (.text m) ↔ x.text? = some m := by
  cases x with
  | null => simp [keyForm?, text?]
  | bool b => simp [keyForm?, text?]
  | int n => simp [keyForm?, text?]
  | float x =>
    cases x with
    | nan => simp [keyForm?, text?]
    | infinite negative =>
      cases h : (Binary64.infinite negative).toInt? <;> simp [keyForm?, text?, h]
    | finite negative units magnitude =>
      cases h : (Binary64.finite negative units magnitude).toInt? <;> simp [keyForm?, text?, h]
  | text s => simp [keyForm?, text?]
  | unresolved name => simp [keyForm?, text?]

/-- A text is one key with the texts that read the same, and with no other scalar. -/
theorem same_iff {x name : Scalar} {m : String} (hname : name.text? = some m) :
    Key.same x name = true ↔ x.text? = some m := by
  show sameKey x name = true ↔ _
  have hform : name.keyForm? = some (.text m) := keyForm?_eq_text_iff.mpr hname
  rw [sameKey, hform, ← keyForm?_eq_text_iff, Bool.and_eq_true, decide_eq_true_eq]
  exact ⟨And.right, fun h => ⟨by rw [h]; rfl, h⟩⟩

end Scalar

/-- Whether a name is among some names. -/
def listed (names : List Scalar) (name : Scalar) : Bool := names.any (Key.same · name)

theorem listed_iff {names : List Scalar} {name : Scalar} :
    listed names name = true ↔ ∃ x ∈ names, Key.same x name = true := List.any_eq_true

namespace Table

variable {κ α : Type} [Key κ]

theorem get?_isSome_iff (t : Table κ α) (key : κ) :
    (t.get? key).isSome = true ↔ ∃ x ∈ t.names, Key.same x key = true := by
  rw [← not_iff_not, Bool.not_eq_true, Option.isSome_eq_false_iff, Option.isNone_iff_eq_none,
    get?_eq_none_iff]
  simp

end Table

/-! ## Registries hold what can be called -/

namespace Registry

theorem listed_iff_isSome (r : Registry) (name : Scalar) :
    listed r.names name = true ↔ (r.get? name).isSome = true := by
  rw [listed_iff, get?, Table.get?_isSome_iff]
  rfl

/-- **Only what can be called is ever registered.** -/
theorem isCallable_of_get? (r : Registry) {name : Scalar} {f : Value}
    (hget : r.get? name = some f) : f.isCallable = true := by
  obtain ⟨x, hx, -⟩ := Table.exists_mem_of_valueIn? hget
  exact (r.sound (x, f) hx).2

end Registry

/-! ## What values expose -/

namespace Value

variable {registries : Nat → Registry}

/-- An object of the embedding program that lists its methods. -/
def isHostObject : Value → Bool
  | .toolbox _ => true
  | .object _ _ => true
  | _ => false

/-- A registry of core methods. -/
def isRegistry : Value → Bool
  | .registry _ => true
  | _ => false

/-- The entries of a value that is a mapping. -/
def entries? : Value → Option (List (Scalar × Value))
  | .dict entries => some entries
  | .view entries => some entries
  | _ => none

/-- Whether looking up a method gives something that can be called. -/
def HasMethod (registries : Nat → Registry) (v : Value) (name : Scalar) : Prop :=
  ∃ f, v.method? registries name = some f ∧ f.isCallable = true

theorem bind_ifCallable_eq_some_iff {o : Option Value} {f : Value} :
    o.bind ifCallable = some f ↔ o = some f ∧ f.isCallable = true := by
  cases o with
  | none => simp
  | some v =>
    show (if v.isCallable then some v else none) = some f ↔ _
    by_cases hv : v.isCallable = true
    · rw [if_pos hv]
      exact ⟨fun h => ⟨h, Option.some.inj h ▸ hv⟩, And.left⟩
    · rw [if_neg hv]
      constructor
      · intro h
        cases h
      · rintro ⟨⟨⟩, hf⟩
        exact absurd hf hv

/-- The methods that a mapping lists are its entries that can be called and have a text as key. -/
theorem listed_mapping_iff {entries : List (Scalar × Value)} {name : Scalar} {m : String}
    (hname : name.text? = some m) :
    listed ((entries.filter isMethodOf).map (·.1)) name = true
      ↔ ∃ entry ∈ entries, entry.2.isCallable = true ∧ Key.same entry.1 name = true := by
  rw [listed_iff]
  simp only [List.mem_map, List.mem_filter, isMethodOf, Bool.and_eq_true]
  constructor
  · rintro ⟨_, ⟨entry, ⟨hmem, _, hcallable⟩, rfl⟩, hsame⟩
    exact ⟨entry, hmem, hcallable, hsame⟩
  · rintro ⟨entry, hmem, hcallable, hsame⟩
    refine ⟨entry.1, ⟨entry, ⟨hmem, ?_, hcallable⟩, rfl⟩, hsame⟩
    rw [(Scalar.same_iff hname).mp hsame]
    rfl

theorem listed_of_valueIn? {entries : List (Scalar × Value)} {name : Scalar} {m : String}
    {f : Value} (hname : name.text? = some m)
    (h : (Table.valueIn? name entries).bind ifCallable = some f) :
    listed ((entries.filter isMethodOf).map (·.1)) name = true := by
  obtain ⟨hvalue, hcallable⟩ := bind_ifCallable_eq_some_iff.mp h
  obtain ⟨x, hx, hsame⟩ := Table.exists_mem_of_valueIn? hvalue
  exact (listed_mapping_iff hname).mpr ⟨(x, f), hx, hcallable, hsame⟩

/-- **A value exposes a method only under a name that it lists.** -/
theorem listed_of_method? {v : Value} {name : Scalar} {m : String} {f : Value}
    (hname : name.text? = some m) (h : v.method? registries name = some f) :
    listed (v.methodNames registries) name = true := by
  cases v with
  | toolbox entries =>
    obtain ⟨hvalue, _⟩ := bind_ifCallable_eq_some_iff.mp h
    obtain ⟨x, hx, hsame⟩ := Table.exists_mem_of_valueIn? hvalue
    exact listed_iff.mpr ⟨x, List.mem_map_of_mem hx, hsame⟩
  | object names attributes =>
    rw [method?, hname, Option.bind_some, objectMethod?] at h
    have hmem : listed names (.text m) = true := by
      by_contra hnot
      rw [listed] at hnot
      rw [if_neg hnot] at h
      cases h
    obtain ⟨x, hx, hsame⟩ := listed_iff.mp hmem
    exact listed_iff.mpr ⟨x, hx, (Scalar.same_iff hname).mpr ((Scalar.same_iff rfl).mp hsame)⟩
  | registry id =>
    refine ((registries id).listed_iff_isSome name).mpr ?_
    rw [show (registries id).get? name = some f from h]
    rfl
  | dict entries => exact listed_of_valueIn? hname h
  | view entries => exact listed_of_valueIn? hname h
  | _ => cases h

/-- **A registry exposes exactly what it lists.** -/
theorem hasMethod_registry_iff (id : Nat) (name : Scalar) :
    (Value.registry id).HasMethod registries name
      ↔ listed ((Value.registry id).methodNames registries) name = true := by
  show _ ↔ listed (registries id).names name = true
  rw [Registry.listed_iff_isSome, Option.isSome_iff_exists]
  exact ⟨fun ⟨f, hf, _⟩ => ⟨f, hf⟩, fun ⟨f, hf⟩ => ⟨f, hf, (registries id).isCallable_of_get? hf⟩⟩

/-- **A mapping exposes exactly what it lists.** -/
theorem hasMethod_mapping_iff {v : Value} {t : Table Scalar Value}
    (hv : v.entries? = some t.entries) {name : Scalar} {m : String}
    (hname : name.text? = some m) :
    v.HasMethod registries name ↔ listed (v.methodNames registries) name = true := by
  refine ⟨fun ⟨f, hf, _⟩ => listed_of_method? hname hf, fun h => ?_⟩
  have hnames : v.methodNames registries = (t.entries.filter isMethodOf).map (·.1) := by
    cases v <;> cases hv <;> rfl
  have hmethod : v.method? registries name = (Table.valueIn? name t.entries).bind ifCallable := by
    cases v <;> cases hv <;> rfl
  rw [hnames, listed_mapping_iff hname] at h
  obtain ⟨entry, hmem, hcallable, hsame⟩ := h
  refine ⟨entry.2, ?_, hcallable⟩
  rw [hmethod, bind_ifCallable_eq_some_iff, Table.valueIn?_of_mem t.distinct hmem hsame]
  exact ⟨rfl, hcallable⟩

end Value

/-! ## What calls reach -/

/-- **What an interpreter's scripts may invoke in a session**: what its core has under a name that
it lists, and what a value bound to one of its variables exposes under a name that it lists. -/
def Session.Exposes (s : Session) (i : Nat) (f : Value) : Prop :=
  (∃ m : String, (s.coreOf i).get? (.text m) = some f
    ∧ listed (s.coreOf i).names (.text m) = true) ∨
  ∃ (x m : String) (v : Value), (s.interpreter i).bindings.get? (.text x) = some v
    ∧ v.method? s.registry (.text m) = some f
    ∧ listed (v.methodNames s.registry) (.text m) = true

/-- The trace of a call exposes nothing. -/
theorem Session.exposes_traced {s : Session} {i : Nat} {f : Value} (label : String)
    (arguments : List Value) :
    (Calling.traced label arguments i s).Exposes i f ↔ s.Exposes i f := by
  unfold Calling.traced
  split
  · rw [logIf_eq]
    rfl
  · rfl

namespace Interpreter

variable {i : Nat} {invoke invoke' : Invoke}

/-- What a call goes to is exposed where it is looked up. -/
theorem exposes_of_target {s : Session} {object method : Node} {t : Target}
    (h : target s i object method = .ok t) : s.Exposes i t.method := by
  obtain ⟨m, -, h⟩ := bind_eq_ok_iff.mp h
  split at h
  · left
    unfold coreTarget at h
    split at h
    · next f hget =>
      cases h
      exact ⟨m, hget, ((s.coreOf i).listed_iff_isSome _).mpr (by rw [hget]; rfl)⟩
    · cases h
  · right
    obtain ⟨x, -, h⟩ := bind_eq_ok_iff.mp h
    unfold objectTarget at h
    split at h
    · cases h
    · next v hx =>
      split at h
      · next f hm =>
        cases h
        exact ⟨x, m, v, hx, hm, Value.listed_of_method? rfl hm⟩
      · cases h
  · cases h

/-- Ways to invoke that do the same to whatever is exposed at the time. -/
def AgreeOnExposed (i : Nat) (invoke invoke' : Invoke) : Prop :=
  ∀ s f arguments, s.Exposes i f →
    (invoke f arguments).perform s = (invoke' f arguments).perform s

theorem call_congr (h : AgreeOnExposed i invoke invoke') (object method : Node)
    (values : List Value) :
    call invoke i object method values = call invoke' i object method values := by
  funext s
  show (call invoke i object method values).perform s
    = (call invoke' i object method values).perform s
  unfold call
  rw [perform_bind, perform_bind, perform_get]
  dsimp only
  cases ht : target s i object method with
  | error e => rfl
  | ok t =>
    rw [show ofRaised (.ok t) = pure t from rfl, pure_bind, pure_bind, Calling.perform_dispatch,
      Calling.perform_dispatch]
    have hexposed := (Session.exposes_traced t.label values).mpr (exposes_of_target ht)
    obtain ⟨e, hverdict⟩ | hverdict := Calling.Verdict.ofTarget_ok s i values t
    · rw [hverdict]
      rfl
    · rw [hverdict, Calling.Verdict.outcome, h _ _ _ hexposed]
      rfl

mutual

/-- **Evaluation depends on what is exposed alone.** -/
theorem evaluate_congr (h : AgreeOnExposed i invoke invoke') :
    ∀ node : Node, evaluate invoke i node = evaluate invoke' i node
  | ⟨.program, _, children⟩ => by
    simp only [evaluate]
    rw [evaluateAll_congr h children]
  | ⟨.call, _, children⟩ => by
    simp only [evaluate]
    exact evaluateCall_congr h children
  | ⟨.string, _, _⟩ => by simp only [evaluate]
  | ⟨.number, _, _⟩ => by simp only [evaluate]
  | ⟨.identifier, _, _⟩ => by simp only [evaluate]
  | ⟨.core, _, _⟩ => by simp only [evaluate]
  | ⟨.method, _, _⟩ => by simp only [evaluate]
  | ⟨.array, _, _⟩ => by simp only [evaluate]

theorem evaluateCall_congr (h : AgreeOnExposed i invoke invoke') :
    ∀ children : List Node, evaluateCall invoke i children = evaluateCall invoke' i children
  | object :: method :: arguments => by
    simp only [evaluateCall]
    rw [evaluateAll_congr h arguments]
    simp only [call_congr h]
  | [_] => by simp only [evaluateCall]
  | [] => by simp only [evaluateCall]

theorem evaluateAll_congr (h : AgreeOnExposed i invoke invoke') :
    ∀ nodes : List Node, evaluateAll invoke i nodes = evaluateAll invoke' i nodes
  | [] => rfl
  | node :: nodes => by
    simp only [evaluateAll]
    rw [evaluate_congr h node, evaluateAll_congr h nodes]

end

open Classical in
/-- **Confining an interpreter's scripts** to what is exposed when it is invoked: anything else is
treated in another way. -/
noncomputable def confine (i : Nat) (other invoke : Invoke) : Invoke := fun f arguments => do
  let s ← get
  if s.Exposes i f then invoke f arguments else other f arguments

theorem agreeOnExposed_confine (i : Nat) (other invoke : Invoke) :
    AgreeOnExposed i (confine i other invoke) invoke := by
  intro s f arguments hexposed
  unfold confine
  rw [perform_bind, perform_get]
  dsimp only
  rw [if_pos hexposed]

end Interpreter

open Interpreter in
/-- **Scripts are confined to what is exposed to them.** To confine them makes no difference, in
whatever way the rest is treated: so whatever evaluating a tree invokes is at that moment a method
that the core has under a name it lists, or that a bound value exposes under a name it lists. A
value exposes something only under a name that it lists. Registries and mappings can be asked for
whatever they list, and values of other kinds than these and the objects of the embedding program
expose nothing. -/
theorem scripts_are_confined (invoke other : Invoke) (i : Nat) (registries : Nat → Registry)
    (name : {x : Scalar // x.text?.isSome}) :
    (∀ node, evaluate (confine i other invoke) i node = evaluate invoke i node)
    ∧ (∀ program, interpret (confine i other invoke) i program = interpret invoke i program)
    ∧ (∀ (v f : Value), v.method? registries name = some f →
        listed (v.methodNames registries) name = true)
    ∧ (∀ id, (Value.registry id).HasMethod registries name
        ↔ listed ((Value.registry id).methodNames registries) name = true)
    ∧ (∀ (v : Value) (t : Table Scalar Value), v.entries? = some t.entries →
        (v.HasMethod registries name ↔ listed (v.methodNames registries) name = true))
    ∧ (∀ v : Value, v.isHostObject = false → v.isRegistry = false → v.entries? = none →
        v.methodNames registries = [] ∧ ∀ m, v.method? registries m = none) := by
  have hagree := agreeOnExposed_confine i other invoke
  obtain ⟨m, hname⟩ := Option.isSome_iff_exists.mp name.2
  refine ⟨evaluate_congr hagree, fun program => ?_, fun v f => Value.listed_of_method? hname,
    fun id => Value.hasMethod_registry_iff id name,
    fun v t hv => Value.hasMethod_mapping_iff hv hname,
    fun v hobject hregistry hmapping => ?_⟩
  · unfold interpret
    rw [evaluateAll_congr hagree]
  · cases v with
    | toolbox => cases hobject
    | object => cases hobject
    | registry => cases hregistry
    | dict => cases hmapping
    | view => cases hmapping
    | _ => exact ⟨rfl, fun _ => rfl⟩

/-- A method of the embedding program. -/
def clickMethod : Value := .method ⟨0, "click", false, none⟩

/-- A registry in which one method is registered. -/
def clickRegistry : Registry := Registry.enter {} ⟨.text "click", rfl⟩ clickMethod rfl .null

/-- The entries of a dictionary of which one is a method: another is not callable, and a third has a
number as its key. -/
def pageEntries : Table Scalar Value :=
  .ofList [(.text "click", clickMethod), (.text "title", .text "Home"), (.int 3, clickMethod)]

/-- A registry and a dictionary expose the one method that they list. -/
theorem clickRegistry_and_page_are_confined :
    (Value.registry 0).HasMethod (fun _ => clickRegistry) (.text "click")
    ∧ (Value.dict pageEntries.entries).HasMethod (fun _ => clickRegistry) (.text "click")
    ∧ ¬ (Value.dict pageEntries.entries).HasMethod (fun _ => clickRegistry) (.text "title") := by
  have hconfined := scripts_are_confined (fun _ _ => pure .null) (fun _ _ => pure .null) 0
    fun _ => clickRegistry
  refine ⟨((hconfined ⟨.text "click", rfl⟩).2.2.2.1 0).mpr rfl,
    ((hconfined ⟨.text "click", rfl⟩).2.2.2.2.1 (.dict pageEntries.entries) _ rfl).mpr rfl, ?_⟩
  rw [(hconfined ⟨.text "title", rfl⟩).2.2.2.2.1 (.dict pageEntries.entries) _ rfl]
  exact Bool.false_ne_true

end CallScript
