import CallScript.Proofs.Confinement
import Mathlib.Data.List.Induction

/-!
# The history of a registry

An embedding program registers and removes methods one after the other, starting from a mapping;
what it asks for may fail. Methods and descriptions are kept in two tables, which every edit leaves
in step (`Registry.InStep`), so after any such history the registry is like one ordered table, and
what it lists and answers can be said by the history alone. A name is listed if some registration of
it *stands*: no later removal has undone it (`Edits.Standing`). Names are listed in the order of
their first standing registrations, so one that is replaced keeps its place and one that was removed
goes last. Method and description are those of the *current* registration, after which the name was
neither registered nor removed (`Edits.Current`).

What one edit does to a registry is said by `Edit.Follows`; that a registry reflects its history
(`Registry.Reflects`) is kept by every edit, and so it holds after all of them.
-/

namespace CallScript

open CallScript.Action

/-! ## Edits and histories -/

/-- **One change that is asked for**: registering a method or removing one. -/
inductive Edit where
  | add (name method description : Value)
  | remove (name : Value)

namespace Edit

/-- **An edit that registers a method**: its name is one that registries take, and the method can be
called. -/
def Registers (e : Edit) (n : String) (f d : Value) : Prop :=
  ∃ name, e = .add name f d ∧ name.text? = some n ∧ Registry.isMethodName n.toList = true ∧
    f.isCallable = true

/-- An edit that removes a name, whether or not it is listed. -/
def Removes (e : Edit) (n : String) : Prop := ∃ name, e = .remove name ∧ name.text? = some n

/-- Asks for an edit of a registry. -/
def perform (id : Nat) : Edit → Action Unit
  | .add name method description => Core.add id name method description
  | .remove name => do let _ ← Core.remove id name

/-- An edit does not register and remove. -/
theorem Registers.not_removes {e : Edit} {n m : String} {f d : Value} (h : e.Registers n f d) :
    ¬ e.Removes m := by
  obtain ⟨name, rfl, -⟩ := h
  rintro ⟨_, heq, -⟩
  cases heq

theorem Removes.eq {e : Edit} {n n' : String} (h : e.Removes n) (h' : e.Removes n') : n = n' := by
  obtain ⟨name, rfl, hname⟩ := h
  obtain ⟨name', heq, hname'⟩ := h'
  cases heq
  exact Option.some.inj (hname.symm.trans hname')

/-- An edit registers at most one method. -/
theorem Registers.eq {e : Edit} {n n' : String} {f f' d d' : Value} (h : e.Registers n f d)
    (h' : e.Registers n' f' d') : n = n' ∧ f = f' ∧ d = d' := by
  obtain ⟨name, rfl, hname, -⟩ := h
  obtain ⟨name', heq, hname', -⟩ := h'
  cases heq
  exact ⟨Option.some.inj (hname.symm.trans hname'), rfl, rfl⟩

end Edit

namespace Edits

/-- **A registration that stands**, by its position in the history: no later edit removes the
name. -/
def Standing (history : List Edit) (n : String) (i : Nat) : Prop :=
  ∃ earlier e later, history = earlier ++ e :: later ∧
    (earlier.length = i ∧ ∃ f d, e.Registers n f d) ∧ ∀ x ∈ later, ¬ x.Removes n

/-- **The current registration** of a name: later edits neither register nor remove it. -/
def Current (history : List Edit) (n : String) (f d : Value) : Prop :=
  ∃ earlier e later, history = earlier ++ e :: later ∧ e.Registers n f d ∧
    ∀ x ∈ later, ¬ x.Removes n ∧ ∀ f' d', ¬ x.Registers n f' d'

/-- What stands somewhere in a list with one item more is that item or stood there before. -/
theorem exists_split_concat {α : Type} {xs : List α} {x : α} {P : List α → α → Prop}
    {Q : α → Prop} :
    (∃ earlier e later, xs ++ [x] = earlier ++ e :: later ∧ P earlier e ∧ ∀ y ∈ later, Q y) ↔
      P xs x ∨
        (∃ earlier e later, xs = earlier ++ e :: later ∧ P earlier e ∧ ∀ y ∈ later, Q y) ∧ Q x := by
  constructor
  · rintro ⟨earlier, e, later, hsplit, hP, hQ⟩
    obtain rfl | ⟨later, y, rfl⟩ := later.eq_nil_or_concat'
    · obtain ⟨rfl, hlast⟩ := List.append_inj' hsplit rfl
      cases hlast
      exact .inl hP
    · rw [← List.cons_append, ← List.append_assoc] at hsplit
      obtain ⟨rfl, hlast⟩ := List.append_inj' hsplit rfl
      cases hlast
      exact .inr ⟨⟨earlier, e, later, rfl, hP, fun y hy => hQ y (List.mem_append_left _ hy)⟩,
        hQ x (List.mem_append_right _ List.mem_cons_self)⟩
  · rintro (hP | ⟨⟨earlier, e, later, rfl, hP, hQ⟩, hx⟩)
    · exact ⟨xs, x, [], rfl, hP, nofun⟩
    · refine ⟨earlier, e, later ++ [x], by simp, hP, fun y hy => ?_⟩
      obtain hy | hy := List.mem_append.mp hy
      · exact hQ y hy
      · exact List.mem_singleton.mp hy ▸ hx

variable {history : List Edit} {e : Edit} {n : String} {f d : Value}

/-- A name stands after one more edit if it was registered by it, or stood before and was not
removed. -/
theorem standing_concat {i : Nat} :
    Standing (history ++ [e]) n i ↔ (history.length = i ∧ ∃ f d, e.Registers n f d) ∨
      Standing history n i ∧ ¬ e.Removes n :=
  exists_split_concat

/-- The last registration of a name is that of the last edit, or an earlier one that it leaves
alone. -/
theorem current_concat :
    Current (history ++ [e]) n f d ↔ e.Registers n f d ∨
      Current history n f d ∧ ¬ e.Removes n ∧ ∀ f' d', ¬ e.Registers n f' d' :=
  exists_split_concat

/-- A name stands since an edit of the history. -/
theorem Standing.lt_length {i : Nat} (h : Standing history n i) : i < history.length := by
  obtain ⟨earlier, e, later, rfl, ⟨rfl, -⟩, -⟩ := h
  rw [List.length_append, List.length_cons]
  omega

/-- If some registration of a name stands, then the last one of them is current. -/
theorem Standing.exists_current {i : Nat} (h : Standing history n i) :
    ∃ f d, Current history n f d := by
  induction history using List.reverseRecOn with
  | nil => exact absurd h.lt_length (Nat.not_lt_zero i)
  | append_singleton history e ih =>
    by_cases he : ∃ f d, e.Registers n f d
    · obtain ⟨f, d, hregisters⟩ := he
      exact ⟨f, d, current_concat.mpr (.inl hregisters)⟩
    · obtain ⟨-, hregisters⟩ | ⟨hstanding, hremoves⟩ := standing_concat.mp h
      · exact absurd hregisters he
      · obtain ⟨f, d, hcurrent⟩ := ih hstanding
        exact ⟨f, d, current_concat.mpr
          (.inr ⟨hcurrent, hremoves, fun f' d' h' => he ⟨f', d', h'⟩⟩)⟩

/-- A name with a last registration stands. -/
theorem Current.exists_standing (h : Current history n f d) : ∃ i, Standing history n i := by
  obtain ⟨earlier, e, later, hsplit, hregisters, hlater⟩ := h
  exact ⟨earlier.length, earlier, e, later, hsplit, ⟨rfl, f, d, hregisters⟩,
    fun x hx => (hlater x hx).1⟩

/-- A registration adds a standing for its name and keeps all others. -/
theorem standing_of_registers (h : e.Registers n f d) {m : String} {i : Nat} :
    Standing (history ++ [e]) m i ↔ history.length = i ∧ m = n ∨ Standing history m i := by
  rw [standing_concat]
  refine or_congr (and_congr_right fun _ => ⟨?_, ?_⟩) (and_iff_left h.not_removes)
  · rintro ⟨f', d', h'⟩
    exact (h'.eq h).1
  · rintro rfl
    exact ⟨f, d, h⟩

/-- A removal ends all standings of its name and no others. -/
theorem standing_of_removes (h : e.Removes n) {m : String} {i : Nat} :
    Standing (history ++ [e]) m i ↔ Standing history m i ∧ m ≠ n := by
  rw [standing_concat]
  constructor
  · rintro (⟨-, f, d, h'⟩ | ⟨hstanding, hremoves⟩)
    · exact absurd h h'.not_removes
    · refine ⟨hstanding, ?_⟩
      rintro rfl
      exact hremoves h
  · rintro ⟨hstanding, hne⟩
    exact .inr ⟨hstanding, fun h' => hne (h'.eq h)⟩

/-- After a registration its name stands, and whatever stood before. -/
theorem exists_standing_of_registers (h : e.Registers n f d) {m : String} :
    (∃ i, Standing (history ++ [e]) m i) ↔ m = n ∨ ∃ i, Standing history m i := by
  constructor
  · rintro ⟨i, hi⟩
    obtain ⟨-, rfl⟩ | hi := (standing_of_registers h).mp hi
    · exact .inl rfl
    · exact .inr ⟨i, hi⟩
  · rintro (rfl | ⟨i, hi⟩)
    · exact ⟨history.length, (standing_of_registers h).mpr (.inl ⟨rfl, rfl⟩)⟩
    · exact ⟨i, (standing_of_registers h).mpr (.inr hi)⟩

/-- Some registration of the one name stands that is earlier than all of the other that stand. -/
def Before (history : List Edit) (a b : String) : Prop :=
  ∃ i, Standing history a i ∧ ∀ j, Standing history b j → i < j

/-- A new registration is later than all that stood, so it does not change which name was first. -/
theorem before_of_registers (h : e.Registers n f d) {a b : String} {i : Nat}
    (hi : Standing history a i) (hlater : ∀ j, Standing history b j → i < j) :
    Before (history ++ [e]) a b := by
  refine ⟨i, (standing_of_registers h).mpr (.inr hi), fun j hj => ?_⟩
  obtain ⟨rfl, -⟩ | hj := (standing_of_registers h).mp hj
  · exact hi.lt_length
  · exact hlater j hj

/-- **The names that a history lists**: those with a registration that stands, in the order of their
first ones. -/
structure Lists (history : List Edit) (names : List String) : Prop where
  nodup : names.Nodup
  mem_iff : ∀ n, n ∈ names ↔ ∃ i, Standing history n i
  ordered : names.Pairwise (Before history)

variable {names : List String}

theorem lists_nil : Lists [] [] := by
  refine ⟨.nil, fun n => ⟨nofun, ?_⟩, .nil⟩
  rintro ⟨i, h⟩
  exact absurd h.lt_length (Nat.not_lt_zero i)

/-- A name that is listed keeps its place when it is registered, and any other goes last. -/
theorem Lists.registered (h : Lists history names) (he : e.Registers n f d) :
    Lists (history ++ [e]) (if n ∈ names then names else names ++ [n]) := by
  have hordered : names.Pairwise (Before (history ++ [e])) :=
    h.ordered.imp fun ⟨_, hi, hlater⟩ => before_of_registers he hi hlater
  by_cases hmem : n ∈ names
  · rw [if_pos hmem]
    refine ⟨h.nodup, fun m => ?_, hordered⟩
    rw [exists_standing_of_registers he, ← h.mem_iff]
    exact (or_iff_right_of_imp fun hm => hm ▸ hmem).symm
  · rw [if_neg hmem]
    refine ⟨?_, fun m => ?_, ?_⟩
    · refine List.nodup_append.mpr ⟨h.nodup, List.nodup_singleton n, ?_⟩
      rintro a ha b hb rfl
      exact hmem (List.mem_singleton.mp hb ▸ ha)
    · rw [exists_standing_of_registers he, ← h.mem_iff, List.mem_append, List.mem_singleton]
      exact or_comm
    · refine List.pairwise_append.mpr ⟨hordered, List.pairwise_singleton .., ?_⟩
      intro a ha b hb
      obtain rfl := List.mem_singleton.mp hb
      obtain ⟨i, hi⟩ := (h.mem_iff a).mp ha
      exact before_of_registers he hi fun j hj => absurd ((h.mem_iff b).mpr ⟨j, hj⟩) hmem

/-- What is removed is listed no more, and the other names keep their order. -/
theorem Lists.removed (h : Lists history names) (he : e.Removes n) :
    Lists (history ++ [e]) (names.filter (· ≠ n)) := by
  have hstays : ∀ m, m ∈ names.filter (· ≠ n) ↔ m ∈ names ∧ m ≠ n := by
    intro m
    rw [List.mem_filter, decide_eq_true_iff]
  refine ⟨h.nodup.filter _, fun m => ?_, ?_⟩
  · rw [hstays, h.mem_iff, ← exists_and_right]
    exact exists_congr fun i => (standing_of_removes he).symm
  · refine (h.ordered.filter _).imp_of_mem ?_
    rintro a b ha - ⟨i, hi, hlater⟩
    exact ⟨i, (standing_of_removes he).mpr ⟨hi, ((hstays a).mp ha).2⟩,
      fun j hj => hlater j ((standing_of_removes he).mp hj).1⟩

end Edits

/-! ## What one edit does to a registry -/

/-- **What an edit does to a registry**: one that registers a method enters it, one that removes a
key takes it out, and any other does nothing. -/
inductive Edit.Follows (r : Registry) : Edit → Registry → Prop
  | registered (name : Registry.MethodName) {f d : Value} (hf : f.isCallable = true)
      (methodsOf : Nat → List Scalar) :
      Follows r (.add (.scalar name.val) f d)
        (r.enter name f hf (Registry.chooseDescription methodsOf d f))
  | removed (key : Scalar) : Follows r (.remove (.scalar key)) (r.remove key)
  | idle {e : Edit} : (∀ n f d, ¬ e.Registers n f d) → (∀ n, ¬ e.Removes n) → Follows r e r

/-- Erasing a key that is not bound changes nothing. -/
theorem Table.erase_eq_self {κ α : Type} [Key κ] {t : Table κ α} {key : κ}
    (h : t.get? key = none) : t.erase key = t := by
  refine Table.ext (List.filter_eq_self.mpr fun entry hmem => ?_)
  rw [(get?_eq_none_iff t key).mp h entry.1 (List.mem_map_of_mem hmem)]
  rfl

namespace Registry

/-- A name is taken as it is, or it is refused and cannot name a method. -/
theorem validateName_cases (methodsOf : Nat → List Scalar) (name : Value) :
    (∃ key : MethodName, name = .scalar key.val ∧ validateName methodsOf name = .ok key) ∨
      validateName methodsOf name = .error (refuseName methodsOf name) ∧
        ∀ n, name.text? = some n → ¬ isMethodName n.toList = true := by
  cases name with
  | scalar key =>
    rw [validateName]
    by_cases hkey : isMethodKey key = true
    · exact .inl ⟨⟨key, hkey⟩, rfl, dif_pos hkey⟩
    · exact .inr ⟨dif_neg hkey, fun n hn hname => hkey (isMethodKey_iff.mpr ⟨n, hn, hname⟩)⟩
  | _ => exact .inr ⟨rfl, nofun⟩

/-- **Why registering fails**: what is asked for is refused, or the name that would be refused
cannot be written. -/
inductive Refuses (methodsOf : Nat → List Scalar) (name : Value) : Raised → Prop
  | script {e : ScriptError} {v : Value} : e.cause = .registration v →
      Refuses methodsOf name (.script e)
  | foreign {e : ForeignError} : name.display methodsOf = .error e →
      Refuses methodsOf name (.foreign e)

/-- The error of a name that is refused says so, or is the one that showing the name raises. -/
theorem refuses_refuseName (methodsOf : Nat → List Scalar) (name : Value) :
    Refuses methodsOf name (refuseName methodsOf name) := by
  unfold refuseName
  cases hshown : name.display methodsOf with
  | ok shown => exact .script rfl
  | error e => exact .foreign hshown

/-- Registering a method does what the edit says, and fails only for an edit that registers
nothing. -/
theorem follows_add (r : Registry) (methodsOf : Nat → List Scalar) (name f d : Value) :
    (∃ r', r.add methodsOf name f d = .ok r' ∧ Edit.Follows r (.add name f d) r') ∨
    ∃ e, r.add methodsOf name f d = .error e ∧ Refuses methodsOf name e ∧
      ∀ n f' d', ¬ (Edit.add name f d).Registers n f' d' := by
  unfold add
  obtain ⟨key, rfl, hkey⟩ | ⟨hrefused, hnone⟩ := validateName_cases methodsOf name
  · rw [hkey]
    dsimp only
    by_cases hf : f.isCallable = true
    · rw [dif_pos hf]
      exact .inl ⟨_, rfl, .registered key hf methodsOf⟩
    · rw [dif_neg hf]
      refine .inr ⟨_, rfl, .script rfl, ?_⟩
      rintro n f' d' ⟨name, heq, -, -, hcallable⟩
      cases heq
      exact hf hcallable
  · rw [hrefused]
    refine .inr ⟨_, rfl, refuses_refuseName methodsOf name, ?_⟩
    rintro n f' d' ⟨name, heq, hname, hn, -⟩
    cases heq
    exact hnone n hname hn

/-- **The names that a registry lists**, as texts. -/
def listing (r : Registry) : List String := r.names.filterMap Scalar.text?

/-- A name is listed exactly if it has a method. -/
theorem mem_listing_iff {r : Registry} {key : Scalar} {n : String} (hkey : key.text? = some n) :
    n ∈ r.listing ↔ (r.get? key).isSome = true := by
  rw [get?, Table.get?_isSome_iff, listing, List.mem_filterMap]
  exact exists_congr fun x => and_congr_right fun _ => (Scalar.same_iff hkey).symm

/-- **A name that is entered keeps its place if it has one, and goes last otherwise.** -/
theorem listing_enter (r : Registry) (name : MethodName) {n : String}
    (hname : name.val.text? = some n) {f : Value} (hf : f.isCallable = true) (d : Value) :
    (r.enter name f hf d).listing = if n ∈ r.listing then r.listing else r.listing ++ [n] := by
  have hthere : n ∈ r.listing ↔ (r.methods.get? name.val).isSome = true := mem_listing_iff hname
  unfold listing names enter
  dsimp only
  rw [Table.names_insert, Table.contains]
  by_cases hmem : n ∈ r.listing
  · rw [if_pos (hthere.mp hmem)]
    exact (if_pos hmem).symm
  · rw [if_neg fun h => hmem (hthere.mpr h), List.filterMap_append]
    refine .trans ?_ (if_neg hmem).symm
    rw [List.filterMap_cons_some hname]
    rfl

/-- Removing what is not there changes nothing. -/
theorem remove_eq_self {r : Registry} {key : Scalar} (h : r.get? key = none) :
    r.remove key = r := by
  refine if_neg ?_
  show ¬ (r.get? key).isSome = true
  rw [h]
  exact Bool.false_ne_true

/-- Whether or not a key is there, it is erased from the methods. -/
theorem methods_remove (r : Registry) (key : Scalar) :
    (r.remove key).methods = r.methods.erase key := by
  cases hkey : r.get? key with
  | some f =>
    have hthere : r.contains key = true := Option.isSome_iff_exists.mpr ⟨f, hkey⟩
    unfold remove
    rw [if_pos hthere]
  | none =>
    rw [remove_eq_self hkey, Table.erase_eq_self hkey]

/-- A name that is removed leaves the others in their order. -/
theorem listing_remove (r : Registry) {key : Scalar} {n : String} (hkey : key.text? = some n) :
    (r.remove key).listing = r.listing.filter (· ≠ n) := by
  unfold listing names
  rw [methods_remove, Table.names_erase, List.filterMap_filter, List.filter_filterMap]
  refine congrArg (List.filterMap · r.methods.names) (funext fun x => ?_)
  cases hsame : Key.same x key with
  | true =>
    rw [(Scalar.same_iff hkey).mp hsame, Option.filter_some]
    simp
  | false =>
    cases htext : x.text? with
    | none => rfl
    | some m =>
      have hother : m ≠ n := by
        rintro rfl
        rw [(Scalar.same_iff hkey).mpr htext] at hsame
        cases hsame
      simp [Option.filter_some, hother]

/-! ## The two tables -/

/-- **The two tables are in step**: they bind the same names, in the same order. -/
def InStep (r : Registry) : Prop := r.descriptions.names = r.methods.names

namespace InStep

variable {r : Registry}

/-- Names with a description are those with a method. -/
theorem contains_eq (h : r.InStep) (key : Scalar) :
    r.descriptions.contains key = r.methods.contains key := by
  unfold Table.contains
  rw [Bool.eq_iff_iff, Table.get?_isSome_iff, Table.get?_isSome_iff, h]

/-- A name that is entered goes to the same place in both tables. -/
theorem enter (h : r.InStep) (name : MethodName) {f : Value} (hf : f.isCallable = true)
    (d : Value) : (r.enter name f hf d).InStep := by
  show (r.descriptions.insert name.val d).names = (r.methods.insert name.val f).names
  rw [Table.names_insert, Table.names_insert, h.contains_eq, h]

/-- A name that is removed leaves both tables. -/
theorem remove (h : r.InStep) (key : Scalar) : (r.remove key).InStep := by
  unfold Registry.remove
  split
  · show (r.descriptions.erase key).names = (r.methods.erase key).names
    rw [Table.names_erase, Table.names_erase, h]
  · exact h

/-- A name that has no method has no description either. -/
theorem get?_descriptions_eq_none (h : r.InStep) {key : Scalar} (hkey : r.get? key = none) :
    r.descriptions.get? key = none := by
  refine Option.not_isSome_iff_eq_none.mp fun hsome => ?_
  have hthere : (r.get? key).isSome = true := (h.contains_eq key).symm.trans hsome
  rw [hkey] at hthere
  cases hthere

end InStep

/-! ## A registry reflects its history -/

/-- **A registry reflects a history**: its tables are in step, it lists what the history lists, and
every name has the method and the description of its current registration. -/
structure Reflects (history : List Edit) (r : Registry) : Prop where
  inStep : r.InStep
  lists : Edits.Lists history r.listing
  current : ∀ key n f d, Scalar.text? key = some n → Edits.Current history n f d →
    r.get? key = some f ∧
      ∃ methodsOf, r.descriptions.get? key = some (chooseDescription methodsOf d f)

/-- All names are texts, so no other key is bound. -/
theorem get?_of_no_text (r : Registry) {key : Scalar} (hkey : key.text? = none) :
    r.get? key = none := by
  refine (Table.get?_eq_none_iff _ _).mpr fun x hx => ?_
  obtain ⟨n, hn, -⟩ := r.exists_text_of_mem_names hx
  rw [Key.same_comm]
  refine eq_false_of_ne_true fun hsame => ?_
  cases hkey.symm.trans ((Scalar.same_iff hn).mp hsame)

/-- The texts of the names are all of the names. -/
theorem map_text?_names (r : Registry) : r.names.map Scalar.text? = r.listing.map some := by
  rw [listing, List.map_filterMap, ← List.filterMap_eq_map]
  refine List.filterMap_congr fun x hx => ?_
  obtain ⟨n, hn, -⟩ := r.exists_text_of_mem_names hx
  show some x.text? = x.text?.map some
  rw [hn]
  rfl

namespace Reflects

variable {history : List Edit} {r : Registry}

theorem empty (config : CoreConfig) : Reflects [] { config := config } := by
  refine ⟨rfl, Edits.lists_nil, fun key n f d hkey h => ?_⟩
  obtain ⟨i, hi⟩ := h.exists_standing
  exact absurd hi.lt_length (Nat.not_lt_zero i)

/-- An edit that neither registers nor removes anything leaves no trace. -/
theorem idle (h : Reflects history r) {e : Edit} (hadd : ∀ n f d, ¬ e.Registers n f d)
    (hremove : ∀ n, ¬ e.Removes n) : Reflects (history ++ [e]) r := by
  have hstanding : ∀ n i, Edits.Standing (history ++ [e]) n i ↔ Edits.Standing history n i := by
    intro n i
    rw [Edits.standing_concat]
    simp [hadd, hremove]
  refine ⟨h.inStep, ⟨h.lists.nodup, ?_, ?_⟩, fun key n f d hkey hcurrent => ?_⟩
  · simpa only [hstanding] using h.lists.mem_iff
  · refine h.lists.ordered.imp ?_
    rintro a b ⟨i, hi, hlater⟩
    exact ⟨i, (hstanding a i).mpr hi, fun j hj => hlater j ((hstanding b j).mp hj)⟩
  · obtain hregisters | ⟨hcurrent, -⟩ := Edits.current_concat.mp hcurrent
    · exact absurd hregisters (hadd n f d)
    · exact h.current key n f d hkey hcurrent

/-- A registration binds the name in both tables, and all other names keep what they had. -/
theorem registered (h : Reflects history r) (name : MethodName) {f d : Value}
    (hf : f.isCallable = true) (methodsOf : Nat → List Scalar) :
    Reflects (history ++ [.add (.scalar name.val) f d])
      (r.enter name f hf (chooseDescription methodsOf d f)) := by
  obtain ⟨n, hname, hn⟩ := isMethodKey_iff.mp name.property
  have hregisters : (Edit.add (.scalar name.val) f d).Registers n f d := ⟨_, rfl, hname, hn, hf⟩
  refine ⟨h.inStep.enter name hf _, ?_, fun query m f' d' hquery hcurrent => ?_⟩
  · rw [listing_enter r name hname]
    exact h.lists.registered hregisters
  · show (r.methods.insert name.val f).get? query = _ ∧
      ∃ methodsOf', (r.descriptions.insert name.val _).get? query = some _
    rw [Table.get?_insert, Table.get?_insert]
    obtain hlast | ⟨hcurrent, -, hother⟩ := Edits.current_concat.mp hcurrent
    · obtain ⟨rfl, rfl, rfl⟩ := hlast.eq hregisters
      have hsame := (Scalar.same_iff hquery).mpr hname
      exact ⟨if_pos hsame, methodsOf, if_pos hsame⟩
    · have hsame : ¬ Key.same name.val query = true := by
        intro hsame
        obtain rfl := Option.some.inj (hname.symm.trans ((Scalar.same_iff hquery).mp hsame))
        exact hother f d hregisters
      rw [if_neg hsame, if_neg hsame]
      exact h.current query m f' d' hquery hcurrent

/-- A removal takes the name out of both tables, and all other names keep what they had. -/
theorem removed (h : Reflects history r) (key : Scalar) :
    Reflects (history ++ [.remove (.scalar key)]) (r.remove key) := by
  cases hkey : key.text? with
  | some n =>
    have hremoves : (Edit.remove (.scalar key)).Removes n := ⟨_, rfl, hkey⟩
    refine ⟨h.inStep.remove key, ?_, fun query m f d hquery hcurrent => ?_⟩
    · rw [listing_remove r hkey]
      exact h.lists.removed hremoves
    · obtain hlast | ⟨hcurrent, hother, -⟩ := Edits.current_concat.mp hcurrent
      · exact absurd hremoves hlast.not_removes
      · have hsame : ¬ Key.same key query = true := by
          intro hsame
          obtain rfl := Option.some.inj (hkey.symm.trans ((Scalar.same_iff hquery).mp hsame))
          exact hother hremoves
        obtain ⟨hmethod, hdescription⟩ := h.current query m f d hquery hcurrent
        unfold Registry.remove
        split
        · show (r.methods.erase key).get? query = _ ∧
            ∃ methodsOf, (r.descriptions.erase key).get? query = some _
          rw [Table.get?_erase, Table.get?_erase, if_neg hsame, if_neg hsame]
          exact ⟨hmethod, hdescription⟩
        · exact ⟨hmethod, hdescription⟩
  | none =>
    rw [remove_eq_self (r.get?_of_no_text hkey)]
    refine h.idle ?_ ?_
    · rintro n f d ⟨name, heq, -⟩
      cases heq
    · rintro n ⟨name, heq, hname⟩
      cases heq
      cases hkey.symm.trans hname

/-- **Every edit keeps a registry in step with its history.** -/
theorem follows (h : Reflects history r) {e : Edit} {r' : Registry} (he : e.Follows r r') :
    Reflects (history ++ [e]) r' := by
  cases he with
  | registered name hf methodsOf => exact h.registered name hf methodsOf
  | removed key => exact h.removed key
  | idle hadd hremove => exact h.idle hadd hremove

end Reflects

end Registry

/-! ## Registries of a session -/

theorem Session.setRegistry_registry (s : Session) (id : Nat) :
    s.setRegistry id (s.registry id) = s := by
  have hset : s.registries.set id (s.registry id) = s.registries := by
    by_cases hid : id < s.registries.length
    · have hget : s.registry id = s.registries[id] := by
        rw [registry, List.getElem?_eq_getElem hid]
        rfl
      rw [hget, List.set_getElem_self]
    · exact List.set_eq_of_length_le (Nat.not_lt.mp hid)
  unfold setRegistry
  rw [hset]

/-- A registry that was replaced is the one that replaced it. -/
theorem Session.registry_set {s t : Session} (h : t.registries = s.registries) {id : Nat}
    (hid : id < s.registries.length) (r : Registry) : (t.setRegistry id r).registry id = r := by
  unfold registry setRegistry
  dsimp only
  rw [h, List.getElem?_set_self hid]
  rfl

namespace Core

variable {id : Nat} {s : Session}

/-- The registry that is made from a mapping. -/
theorem registry_of_create {config : CoreConfig} {methods : List (Scalar × Value)} {t : Session}
    (h : (create config methods).perform s = (.ok id, t)) :
    id < t.registries.length ∧
      Registry.ofMethods s.methodsOf config (Value.dictOf methods) = .ok (t.registry id) := by
  unfold create at h
  rw [perform_bind, perform_get] at h
  dsimp only at h
  cases hmade : Registry.ofMethods s.methodsOf config (Value.dictOf methods) with
  | error e =>
    rw [hmade] at h
    cases h
  | ok r =>
    rw [hmade] at h
    have hmake : (Except.ok s.registries.length, { s with registries := s.registries ++ [r] })
        = ((.ok id, t) : Except Raised Nat × Session) := h
    obtain ⟨hid, rfl⟩ := Prod.mk.inj hmake
    obtain rfl := Except.ok.inj hid
    refine ⟨?_, ?_⟩
    · show _ < (s.registries ++ [r]).length
      rw [List.length_append]
      exact Nat.lt_succ_self _
    · show _ = Except.ok (((s.registries ++ [r])[s.registries.length]?).getD default)
      rw [List.getElem?_concat_length]
      rfl

/-- Registering that fails raises its error and leaves the session as it is. -/
theorem perform_add_of_error {name f d : Value} {e : Raised}
    (h : (s.registry id).add s.methodsOf name f d = .error e) :
    (add id name f d).perform s = (.error e, s) := by
  unfold add
  rw [perform_bind, perform_get]
  dsimp only
  rw [h]
  rfl

/-- Registering a method changes the registry; a replacement may be logged before. -/
theorem perform_add_of_ok {name f d : Value} {r : Registry}
    (h : (s.registry id).add s.methodsOf name f d = .ok r) :
    ∃ t : Session, (add id name f d).perform s = (.ok (), t.setRegistry id r) ∧
      t.registries = s.registries := by
  unfold add
  rw [perform_bind, perform_get]
  dsimp only
  rw [h]
  by_cases hold : (s.registry id).contains (.text (name.text?.getD "")) = true
  · refine ⟨s.log ⟨10, Logger.registry,
      "Replacing core method '" ++ name.text?.getD "" ++ "'"⟩, ?_, ?_⟩
    · simp only [if_pos hold]
      rfl
    · rfl
  · refine ⟨s, ?_, rfl⟩
    simp only [if_neg hold]
    rfl

theorem perform_find? (key : Scalar) :
    (find? id (.scalar key)).perform s = (.ok ((s.registry id).get? key), s) := rfl

theorem perform_remove (key : Scalar) :
    (remove id (.scalar key)).perform s = (.ok ((s.registry id).get? key).isSome,
      s.setRegistry id ((s.registry id).remove key)) := rfl

theorem perform_contains (key : Scalar) :
    (contains id (.scalar key)).perform s = (.ok ((s.registry id).get? key).isSome, s) := rfl

/-- What is told about a method combines what the two tables bind to its name. -/
theorem perform_describe_of_some {key : Scalar} {f d : Value}
    (hmethod : (s.registry id).get? key = some f)
    (hdescription : (s.registry id).descriptions.get? key = some d) :
    (describe id (.scalar key)).perform s
      = ((Registry.infoOf (key.text?.getD "") f d).mapError .invalid, s) := by
  have hrequire : (require id (.scalar key)).perform s = (.ok f, s) := by
    unfold require
    rw [perform_bind, perform_find?, hmethod]
    rfl
  have hdescribed : (describedAs id (.scalar key)).perform s = (.ok d, s) := by
    show (Except.ok (((s.registry id).descriptions.get? key).getD .null), s) = _
    rw [hdescription]
    rfl
  unfold describe
  rw [perform_bind, hrequire]
  dsimp only
  rw [perform_bind, hdescribed]
  dsimp only
  rw [show (Value.scalar key).text? = key.text? from rfl]
  cases Registry.infoOf (key.text?.getD "") f d <;> rfl

/-- A name without a method cannot be described. -/
theorem perform_describe_of_none {key : Scalar} (hmethod : (s.registry id).get? key = none) :
    (describe id (.scalar key)).perform s
      = (.error ((s.registry id).refuse s.methodsOf (.scalar key)), s) := by
  unfold describe require
  rw [perform_bind, perform_bind, perform_find?, hmethod]
  rfl

end Core

/-- **Asking for an edit** does to the registry what the edit does. -/
theorem Edit.follows_perform (e : Edit) {id : Nat} {s : Session} (hid : id < s.registries.length) :
    e.Follows (s.registry id) (((e.perform id).perform s).2.registry id) ∧
      ((e.perform id).perform s).2.registries.length = s.registries.length := by
  cases e with
  | add name f d =>
    rw [show (Edit.add name f d).perform id = Core.add id name f d from rfl]
    obtain ⟨r, hr, hfollows⟩ | ⟨e, he, -, hnone⟩ :=
      (s.registry id).follows_add s.methodsOf name f d
    · obtain ⟨t, ht, hregistries⟩ := Core.perform_add_of_ok hr
      rw [ht, Session.registry_set hregistries hid]
      refine ⟨hfollows, ?_⟩
      rw [Session.setRegistry, List.length_set, hregistries]
    · rw [Core.perform_add_of_error he]
      refine ⟨.idle hnone ?_, rfl⟩
      rintro n ⟨name, heq, -⟩
      cases heq
  | remove name =>
    cases name with
    | scalar key =>
      have hperform : (((Edit.remove (.scalar key)).perform id).perform s).2
          = s.setRegistry id ((s.registry id).remove key) := rfl
      rw [hperform, Session.registry_set rfl hid]
      refine ⟨.removed key, ?_⟩
      rw [Session.setRegistry, List.length_set]
    | _ =>
      refine ⟨.idle ?_ ?_, rfl⟩
      · rintro n f d ⟨name, heq, -⟩
        cases heq
      · rintro n ⟨name, heq, hname⟩
        cases heq
        cases hname

namespace Edits

/-- The session after edits of a registry; what an edit raises is caught by the one who asked for
it. -/
def after (id : Nat) (edits : List Edit) (s : Session) : Session :=
  edits.foldl (fun s e => ((e.perform id).perform s).2) s

/-- **A registry reflects its history after any edits.** -/
theorem reflects_after {id : Nat} {history : List Edit} {s : Session}
    (hid : id < s.registries.length) (h : (s.registry id).Reflects history) (edits : List Edit) :
    ((after id edits s).registry id).Reflects (history ++ edits) := by
  induction edits generalizing history s with
  | nil =>
    rw [List.append_nil]
    exact h
  | cons e edits ih =>
    obtain ⟨hfollows, hlength⟩ := e.follows_perform hid
    rw [List.append_cons]
    exact ih (hlength ▸ hid) (h.follows hfollows)

/-- The edits that a mapping stands for: its entries are registered without descriptions. -/
def ofMapping (methods : List (Scalar × Value)) : List Edit :=
  (Value.dictOf methods).map fun entry => .add (.scalar entry.1) entry.2 .null

/-- **A registry made from a mapping reflects the registrations of its entries**, in order. The
induction is on the entries, with the history before them left free. -/
theorem reflects_foldlM {methodsOf : Nat → List Scalar} {methods : List (Scalar × Value)}
    {history : List Edit} {r r' : Registry} (h : r.Reflects history)
    (hadd : methods.foldlM (fun r entry => r.add methodsOf (.scalar entry.1) entry.2 .null) r
      = .ok r') :
    r'.Reflects (history ++ methods.map fun entry => .add (.scalar entry.1) entry.2 .null) := by
  induction methods generalizing history r with
  | nil =>
    obtain rfl := Except.ok.inj hadd
    rw [List.map_nil, List.append_nil]
    exact h
  | cons entry methods ih =>
    rw [List.foldlM_cons] at hadd
    obtain ⟨next, hnext, hfollows⟩ | ⟨e, he, -⟩ :=
      r.follows_add methodsOf (.scalar entry.1) entry.2 .null
    · rw [hnext] at hadd
      rw [List.map_cons, List.append_cons]
      exact ih (h.follows hfollows) hadd
    · rw [he] at hadd
      cases hadd

/-- A registry that was made from a mapping reflects the edits that the mapping stands for. -/
theorem reflects_create {config : CoreConfig} {methods : List (Scalar × Value)} {s t : Session}
    {id : Nat} (h : (Core.create config methods).perform s = (.ok id, t)) :
    id < t.registries.length ∧ (t.registry id).Reflects (ofMapping methods) := by
  obtain ⟨hid, hmade⟩ := Core.registry_of_create h
  exact ⟨hid, reflects_foldlM (Registry.Reflects.empty config) hmade⟩

end Edits

/-! ## What a registry answers -/

/-- **What is told as the description of a method** `f` which was registered with the description
`d`: that one if it counts as true, and it has to be a text; and else the one that the method
carries itself. -/
inductive Described (d f : Value) : Except (List FieldIssue) (Option String) → Prop
  | given {text : String} : d.text? = some text → text ≠ "" → Described d f (.ok (some text))
  | own {methodsOf : Nat → List Scalar} :
      d.counts methodsOf = false → Described d f (.ok (Registry.ownDescription f).text?)
  | noText {methodsOf : Nat → List Scalar} : d.counts methodsOf = true → d.text? = none →
      Described d f (.error [⟨"description", .textKind⟩])

/-- A value that reads as a text is a key. -/
theorem Value.exists_key_of_text? {v : Value} {text : String} (h : v.text? = some text) :
    ∃ key, v = .scalar key ∧ key.text? = some text := by
  cases v with
  | scalar key => exact ⟨key, rfl, h⟩
  | _ => cases h

theorem Value.eq_of_text? {v : Value} {text : String} (h : v.text? = some text) :
    v = .text text ∨ v = .scalar (.unresolved text) := by
  cases v with
  | scalar x =>
    cases x with
    | text s => exact .inl (Option.some.inj h ▸ rfl)
    | unresolved name => exact .inr (Option.some.inj h ▸ rfl)
    | _ => cases h
  | _ => cases h

/-- The description that a method carries is a text or nothing. -/
theorem Registry.ownDescription_eq (f : Value) :
    ownDescription f = .null ∨ ∃ text, ownDescription f = .text text := by
  unfold ownDescription
  split
  · split
    · exact .inr ⟨_, rfl⟩
    · exact .inl rfl
  · exact .inr ⟨_, rfl⟩
  · exact .inl rfl

/-- What a method says of itself can always be told. -/
theorem Registry.infoOf_own (n : String) (f : Value) :
    infoOf n f (ownDescription f) = .ok ⟨n, (ownDescription f).text?, isAsync f⟩ := by
  obtain hnone | ⟨text, htext⟩ := ownDescription_eq f
  · rw [hnone]
    rfl
  · rw [htext]
    rfl

/-- A text counts as true unless it is empty. -/
theorem Value.counts_of_text? {v : Value} {text : String} (h : v.text? = some text)
    (methodsOf : Nat → List Scalar) : v.counts methodsOf = (text != "") := by
  obtain rfl | rfl := eq_of_text? h <;> rfl

/-- **What is told about a method** is the description it was registered with, or else its own. -/
theorem Registry.exists_infoOf (n : String) (f d : Value) (methodsOf : Nat → List Scalar) :
    ∃ told, Described d f told ∧ infoOf n f (chooseDescription methodsOf d f)
      = told.map fun description => ⟨n, description, isAsync f⟩ := by
  unfold chooseDescription
  cases hcounts : d.counts methodsOf with
  | false => exact ⟨_, .own hcounts, infoOf_own n f⟩
  | true =>
    rw [if_pos rfl]
    cases htext : d.text? with
    | some text =>
      have hfilled : text ≠ "" := bne_iff_ne.mp (Value.counts_of_text? htext methodsOf ▸ hcounts)
      refine ⟨_, .given htext hfilled, ?_⟩
      obtain rfl | rfl := Value.eq_of_text? htext <;> rfl
    | none =>
      refine ⟨_, .noText hcounts htext, ?_⟩
      unfold infoOf
      split
      · cases hcounts
      · rw [htext]
        rfl

/-- The error of a name that is a text shows it as it is. -/
theorem Registry.refuse_of_text (r : Registry) (methodsOf : Nat → List Scalar) {key : Scalar}
    {n : String} (hkey : key.text? = some n) :
    r.refuse methodsOf (.scalar key) = .script (r.notFound (.scalar key) n) := by
  have hplain : (Value.scalar key).plain methodsOf = .ok n := Value.plain_of_text hkey
  unfold refuse
  rw [hplain]

/-- **What a registry answers after a history.** A name may be asked for by any value that reads as
it. -/
structure Core.AnswersBy (history : List Edit) (id : Nat) (s : Session) : Prop where
  /-- All that is stored is valid. -/
  stored : ∀ entry ∈ (s.registry id).methods.entries,
    (∃ name, Registry.validateName s.methodsOf (.scalar entry.1) = .ok name) ∧
      entry.2.isCallable = true
  /-- The names are those that the history lists, in its order. -/
  names : ∃ listing, (s.registry id).names.map Scalar.text? = listing.map some ∧
    (s.registry id).methods.size = listing.length ∧ Edits.Lists history listing
  /-- The names that have descriptions are those that have methods, in the same order. -/
  inStep : (s.registry id).InStep
  /-- A name is contained if one of its registrations stands. -/
  contains : ∀ name n, name.text? = some n → ∃ there,
    (Core.contains id name).perform s = (.ok there, s) ∧
      (there = true ↔ ∃ i, Edits.Standing history n i)
  /-- Nothing but a text is contained. -/
  contains_other : ∀ name there t, name.text? = none →
    (Core.contains id name).perform s = (.ok there, t) → there = false
  /-- A name that is listed has a current registration. -/
  exists_current : ∀ n i, Edits.Standing history n i → ∃ f d, Edits.Current history n f d
  /-- The method and the description of a name are those of its current registration. -/
  listed : ∀ name n f d, name.text? = some n → Edits.Current history n f d →
    (Core.find? id name).perform s = (.ok (some f), s) ∧
    ∃ told, Described d f told ∧ (Core.describe id name).perform s
      = ((told.map fun description => ⟨n, description, Registry.isAsync f⟩).mapError .invalid, s)
  /-- A name that is not listed has no method and no description, and asking for them is an
  error. -/
  unlisted : ∀ name n, name.text? = some n → (∀ i, ¬ Edits.Standing history n i) →
    (Core.find? id name).perform s = (.ok none, s) ∧
    (Core.describedAs id name).perform s = (.ok .null, s) ∧
    (Core.describe id name).perform s = (.error (.script ((s.registry id).notFound name n)), s)

/-- **A registry that reflects a history answers by it.** -/
theorem Core.answersBy_of_reflects {history : List Edit} {id : Nat} {s : Session}
    (h : (s.registry id).Reflects history) : Core.AnswersBy history id s := by
  have hnames := (s.registry id).map_text?_names
  refine ⟨fun entry hentry => ?_, ⟨(s.registry id).listing, hnames, ?_, h.lists⟩, h.inStep, ?_, ?_,
    fun n i hstanding => hstanding.exists_current, ?_, ?_⟩
  · obtain ⟨hkey, hcallable⟩ := (s.registry id).sound entry hentry
    exact ⟨⟨⟨entry.1, hkey⟩, dif_pos hkey⟩, hcallable⟩
  · have hlength := congrArg List.length hnames
    rwa [List.length_map, List.length_map, Registry.names, Table.names, List.length_map] at hlength
  · intro name n hname
    obtain ⟨key, rfl, hkey⟩ := Value.exists_key_of_text? hname
    exact ⟨_, perform_contains key, by rw [← Registry.mem_listing_iff hkey, h.lists.mem_iff]⟩
  · intro name there t hname hcontains
    -- what is no key raises an error, and what is no text is no name
    cases name with
    | scalar key =>
      rw [perform_contains, (s.registry id).get?_of_no_text hname] at hcontains
      exact (Except.ok.inj (Prod.mk.inj hcontains).1).symm
    | list items => cases hcontains
    | dict entries => cases hcontains
    | view entries => cases hcontains
    | _ => exact (Except.ok.inj (Prod.mk.inj hcontains).1).symm
  · intro name n f d hname hcurrent
    obtain ⟨key, rfl, hkey⟩ := Value.exists_key_of_text? hname
    obtain ⟨hmethod, methodsOf, hdescription⟩ := h.current key n f d hkey hcurrent
    obtain ⟨told, hdescribed, hinfo⟩ := Registry.exists_infoOf n f d methodsOf
    refine ⟨?_, told, hdescribed, ?_⟩
    · rw [perform_find?, hmethod]
    · rw [perform_describe_of_some hmethod hdescription, hkey, ← hinfo]
      rfl
  · intro name n hname hstanding
    obtain ⟨key, rfl, hkey⟩ := Value.exists_key_of_text? hname
    have hnone : (s.registry id).get? key = none := by
      refine Option.not_isSome_iff_eq_none.mp fun hsome => ?_
      obtain ⟨i, hi⟩ := (h.lists.mem_iff n).mp ((Registry.mem_listing_iff hkey).mpr hsome)
      exact hstanding i hi
    refine ⟨?_, ?_, ?_⟩
    · rw [perform_find?, hnone]
    · show (Except.ok (((s.registry id).descriptions.get? key).getD .null), s) = _
      rw [h.inStep.get?_descriptions_eq_none hnone]
      rfl
    · rw [perform_describe_of_none hnone, Registry.refuse_of_text _ _ hkey]

/-! ## Edits that fail -/

/-- If registering fails, then nothing is changed. -/
theorem Core.eq_of_add_error {id : Nat} {name f d : Value} {s t : Session} {e : Raised}
    (h : (Core.add id name f d).perform s = (.error e, t)) :
    t = s ∧ Registry.Refuses s.methodsOf name e := by
  obtain ⟨r, hr, -⟩ | ⟨error, herror, hrefuses, -⟩ :=
    (s.registry id).follows_add s.methodsOf name f d
  · obtain ⟨u, hu, -⟩ := perform_add_of_ok hr
    rw [hu] at h
    cases h
  · rw [perform_add_of_error herror] at h
    obtain ⟨he, rfl⟩ := Prod.mk.inj h
    exact ⟨rfl, Except.error.inj he ▸ hrefuses⟩

/-- Removing what is not there changes nothing. -/
theorem Core.eq_of_remove_false {id : Nat} {name : Value} {s t : Session}
    (h : (Core.remove id name).perform s = (.ok false, t)) : t = s := by
  cases name with
  | scalar key =>
    rw [perform_remove] at h
    obtain ⟨hthere, rfl⟩ := Prod.mk.inj h
    have hnone := Option.isSome_eq_false_iff.mp (Except.ok.inj hthere)
    rw [Registry.remove_eq_self (Option.isNone_iff_eq_none.mp hnone), Session.setRegistry_registry]
  | list items => cases h
  | dict entries => cases h
  | view entries => cases h
  | _ => exact (Prod.mk.inj h).2.symm

/-- **A registry answers by its history.** Let a registry be made from a mapping and be edited in
any way: names may be invalid, methods may be values that cannot be called, and what is removed need
not be there. Then its names are those with a registration that stands, each once and in the order
of the first such registrations; what it contains, finds and describes is given by the current
registrations; and all that it stores is valid. If registering fails or there is nothing to remove,
then nothing is changed. -/
theorem registry_answers_by_history (config : CoreConfig) (methods : List (Scalar × Value))
    (s t : Session) (id : Nat) (hcreate : (Core.create config methods).perform s = (.ok id, t))
    (edits : List Edit) :
    Core.AnswersBy (Edits.ofMapping methods ++ edits) id (Edits.after id edits t) ∧
    (∀ name f d e u, (Core.add id name f d).perform (Edits.after id edits t) = (.error e, u) →
      u = Edits.after id edits t ∧ Registry.Refuses (Edits.after id edits t).methodsOf name e) ∧
    ∀ name u, (Core.remove id name).perform (Edits.after id edits t) = (.ok false, u) →
      u = Edits.after id edits t := by
  obtain ⟨hid, hreflects⟩ := Edits.reflects_create hcreate
  exact ⟨Core.answersBy_of_reflects (Edits.reflects_after hid hreflects edits),
    fun _ _ _ _ _ h => Core.eq_of_add_error h, fun _ _ h => Core.eq_of_remove_false h⟩

/-- A method with a description of its own. -/
def shoutMethod : Value := .method ⟨0, "shout", true, some "Shouts."⟩

/-- A method with none. -/
def whisperMethod : Value := .method ⟨1, "whisper", false, none⟩

def voices : List (Scalar × Value) :=
  [(.text "shout", shoutMethod), (.text "whisper", whisperMethod)]

/-- The second method is replaced, and the first is removed and registered again. The other edits
fail. -/
def voiceEdits : List Edit :=
  [.add (.text "whisper") shoutMethod (.text "Whispers."), .remove (.text "shout"),
    .add (.text "shout") shoutMethod .null, .add (.text "no name") shoutMethod .null,
    .add (.text "whisper") .null .null, .remove (.text "sing")]

/-- The session in which the registry was made. -/
def voiceSession : Session := ((Core.create default voices).perform {}).2

/-- What was replaced keeps its place and is described anew; what was registered again goes last. -/
theorem voices_answer_by_history :
    (Core.create default voices).perform {} = (.ok 0, voiceSession) ∧
    ((Edits.after 0 voiceEdits voiceSession).registry 0).names
      = [.text "whisper", .text "shout"] ∧
    ((Core.describe 0 (.text "whisper")).perform (Edits.after 0 voiceEdits voiceSession)).1
      = .ok ⟨"whisper", some "Whispers.", true⟩ ∧
    ((Core.describe 0 (.text "shout")).perform (Edits.after 0 voiceEdits voiceSession)).1
      = .ok ⟨"shout", some "Shouts.", true⟩ ∧
    Core.AnswersBy (Edits.ofMapping voices ++ voiceEdits) 0
      (Edits.after 0 voiceEdits voiceSession) := by
  have hcreate : (Core.create default voices).perform {} = (.ok 0, voiceSession) := rfl
  exact ⟨hcreate, rfl, rfl, rfl,
    (registry_answers_by_history default voices {} voiceSession 0 hcreate voiceEdits).1⟩

end CallScript
