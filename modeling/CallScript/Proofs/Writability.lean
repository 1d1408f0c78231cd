import CallScript.Session.Basic
import Mathlib.Data.List.Forall2

/-!
# What can be written

A value can be displayed exactly if all its parts can (`Value.exists_display_iff`): integers are not
too long, objects do not refuse, and objects that list their methods list texts. A trace asks for
the data form first, but what has a data form can be displayed too, so the condition is the same
(`Value.exists_render_iff`). The names of registered methods are texts, so registries never stand in
the way.
-/

namespace CallScript

/-! ## Computations that may fail -/

section

variable {ε α β : Type}

/-- One computation after another succeeds exactly if both do. -/
theorem bind_eq_ok_iff {x : Except ε α} {f : α → Except ε β} {b : β} :
    x >>= f = .ok b ↔ ∃ a, x = .ok a ∧ f a = .ok b := by
  cases x with
  | ok a => exact ⟨fun h => ⟨a, rfl, h⟩, fun ⟨_, h, hf⟩ => Except.ok.inj h ▸ hf⟩
  | error e => exact ⟨nofun, nofun⟩

theorem map_eq_ok_iff {x : Except ε α} {f : α → β} {b : β} :
    x.map f = .ok b ↔ ∃ a, x = .ok a ∧ f a = b := by
  cases x with
  | ok a =>
    exact ⟨fun h => ⟨a, rfl, Except.ok.inj h⟩, fun ⟨_, h, hf⟩ => by cases h; exact hf ▸ rfl⟩
  | error e => exact ⟨nofun, nofun⟩

theorem exists_bind_eq_ok_iff {x : Except ε α} {f : α → Except ε β} :
    (∃ b, (x >>= f) = .ok b) ↔ ∃ a, x = .ok a ∧ ∃ b, f a = .ok b := by
  simp only [bind_eq_ok_iff]
  constructor
  · rintro ⟨b, a, ha, hb⟩
    exact ⟨a, ha, b, hb⟩
  · rintro ⟨a, ha, b, hb⟩
    exact ⟨b, a, ha, hb⟩

/-- Something is said if a condition holds, and nothing is wrong otherwise. -/
theorem exists_ite_eq_ok_iff {p : Prop} [Decidable p] {x : Except ε α} {a : α} :
    (∃ b, (if p then x else .ok a) = .ok b) ↔ (p → ∃ b, x = .ok b) := by
  split <;> simp_all

theorem exists_map_eq_ok_iff {x : Except ε α} {f : α → β} :
    (∃ b, x.map f = .ok b) ↔ ∃ a, x = .ok a := by
  simp only [map_eq_ok_iff]
  exact ⟨fun ⟨_, a, h, _⟩ => ⟨a, h⟩, fun ⟨a, h⟩ => ⟨f a, a, h, rfl⟩⟩

/-- What is made of a list succeeds exactly if it does for each item. -/
theorem mapM_eq_ok_iff {f : α → Except ε β} {xs : List α} {ys : List β} :
    xs.mapM f = .ok ys ↔ List.Forall₂ (fun x y => f x = .ok y) xs ys := by
  induction xs generalizing ys with
  | nil =>
    rw [List.mapM_nil, List.forall₂_nil_left_iff]
    exact ⟨fun h => (Except.ok.inj h).symm, fun h => h ▸ rfl⟩
  | cons x xs ih =>
    simp only [List.mapM_cons, bind_eq_ok_iff, ih, List.forall₂_cons_left_iff]
    constructor
    · rintro ⟨y, hy, ys', hys', h⟩
      exact ⟨y, ys', hy, hys', (Except.ok.inj h).symm⟩
    · rintro ⟨y, ys', hy, hys', rfl⟩
      exact ⟨y, hy, ys', hys', rfl⟩

theorem exists_forall₂_iff {R : α → β → Prop} {xs : List α} :
    (∃ ys, List.Forall₂ R xs ys) ↔ ∀ x ∈ xs, ∃ y, R x y := by
  induction xs with
  | nil => exact ⟨fun _ x hx => absurd hx List.not_mem_nil, fun _ => ⟨[], .nil⟩⟩
  | cons x xs ih =>
    simp only [List.forall₂_cons_left_iff, List.forall_mem_cons, ← ih]
    constructor
    · rintro ⟨_, y, ys, hy, hys, rfl⟩
      exact ⟨⟨y, hy⟩, ys, hys⟩
    · rintro ⟨⟨y, hy⟩, ys, hys⟩
      exact ⟨_, y, ys, hy, hys, rfl⟩

/-- A list can be gone through exactly if each item can. -/
theorem exists_mapM_eq_ok_iff {f : α → Except ε β} {xs : List α} :
    (∃ ys, xs.mapM f = .ok ys) ↔ ∀ x ∈ xs, ∃ y, f x = .ok y := by
  simp only [mapM_eq_ok_iff, exists_forall₂_iff]

end

namespace Value

/-! ## Scalars and rows -/

/-- A scalar is written in a form exactly if it is not too long. -/
theorem written_eq_ok_iff {form : Scalar → String} {s : Scalar} {shown : String} :
    written form s = .ok shown ↔ isLong s = false ∧ form s = shown := by
  unfold written
  cases isLong s <;> simp

theorem exists_written_iff {form : Scalar → String} {s : Scalar} :
    (∃ shown, written form s = .ok shown) ↔ isLong s = false := by
  simp [written_eq_ok_iff]

theorem exists_displayKeys_iff {keys : List Scalar} :
    (∃ shown, displayKeys keys = .ok shown) ↔ ∀ key ∈ keys, isLong key = false := by
  rw [displayKeys, exists_map_eq_ok_iff, exists_mapM_eq_ok_iff]
  simp only [exists_written_iff]

/-- Items can be joined exactly if they are texts. -/
theorem exists_itemTexts_iff {position : Nat} {items : List Value} :
    (∃ shown, itemTexts position items = .ok shown) ↔ ∀ item ∈ items, item.text?.isSome = true := by
  induction items generalizing position with
  | nil => exact ⟨fun _ item h => absurd h List.not_mem_nil, fun _ => ⟨[], rfl⟩⟩
  | cons item rest ih =>
    rw [List.forall_mem_cons, itemTexts]
    cases item.text? with
    | some shown => simp [exists_map_eq_ok_iff, ih]
    | none => simp

/-! ## Values that can be displayed -/

mutual

/-- **Whether a value can be displayed.** -/
def isWritable : Value → Bool
  | scalar s => !isLong s
  | list items => isWritableAll items
  | dict entries => isWritableEntries entries
  | view entries => isWritableEntries entries
  | handle (.mute _ _ _) => false
  | toolbox entries => entries.all (!isLong ·.1)
  | object names _ => names.all (·.text?.isSome)
  | _ => true

/-- Whether values can be displayed. -/
def isWritableAll : List Value → Bool
  | [] => true
  | v :: vs => isWritable v && isWritableAll vs

/-- Whether entries can be displayed. -/
def isWritableEntries : List (Scalar × Value) → Bool
  | [] => true
  | (k, v) :: entries => !isLong k && isWritable v && isWritableEntries entries

end

theorem isWritableAll_iff {items : List Value} :
    isWritableAll items = true ↔ ∀ v ∈ items, v.isWritable = true := by
  induction items with
  | nil => simp [isWritableAll]
  | cons v vs ih => rw [isWritableAll, Bool.and_eq_true, ih, List.forall_mem_cons]

/-- Entries can be written exactly if their keys are not too long and their values can be
written. -/
theorem isWritableEntries_iff {entries : List (Scalar × Value)} :
    isWritableEntries entries = true ↔
      ∀ e ∈ entries, isLong e.1 = false ∧ e.2.isWritable = true := by
  induction entries with
  | nil => simp [isWritableEntries]
  | cons e entries ih =>
    obtain ⟨k, v⟩ := e
    rw [isWritableEntries, Bool.and_eq_true, Bool.and_eq_true, ih, List.forall_mem_cons,
      Bool.not_eq_true']

/-- Names that can be written: those of registered methods are. -/
def ShortNames (methodsOf : Nat → List Scalar) : Prop :=
  ∀ id, ∀ name ∈ methodsOf id, isLong name = false

/-- An object without methods can be displayed unless it is mute. -/
theorem exists_displayHandle_iff {h : Handle} :
    (∃ shown, displayHandle h = .ok shown) ↔ (handle h).isWritable = true := by
  cases h <;> simp [displayHandle, isWritable]

/-- An object that lists its methods is displayed by their names, which have to be texts. -/
theorem exists_displayObject_iff {names : List Scalar} :
    (∃ shown, displayObject names = .ok shown) ↔ names.all (·.text?.isSome) = true := by
  rw [displayObject, exists_map_eq_ok_iff, exists_itemTexts_iff]
  simp [text?]

variable {methodsOf : Nat → List Scalar}

mutual

/-- **A value has a display form exactly if all its parts do.** -/
theorem exists_display_iff (hnames : ShortNames methodsOf) : ∀ v : Value,
    (∃ shown, v.display methodsOf = .ok shown) ↔ v.isWritable = true
  | scalar s => by
    rw [display, exists_written_iff, isWritable, Bool.not_eq_true']
  | list items => by
    rw [display, exists_map_eq_ok_iff, exists_displayAll_iff hnames, isWritable]
  | dict entries => by
    rw [display, exists_map_eq_ok_iff, exists_displayEntries_iff hnames, isWritable]
  | view entries => by
    rw [display, exists_map_eq_ok_iff, exists_displayEntries_iff hnames, isWritable]
  | handle h => by
    rw [display, exists_displayHandle_iff]
  | toolbox entries => by
    rw [display, exists_map_eq_ok_iff, exists_displayKeys_iff, isWritable, List.all_eq_true]
    simp
  | object names attributes => by
    rw [display, exists_displayObject_iff, isWritable]
  | registry id => by
    rw [display, displayRegistry, exists_map_eq_ok_iff, exists_displayKeys_iff]
    exact ⟨fun _ => rfl, fun _ => hnames id⟩
  | undefined => by simp [display, isWritable]
  | method m => by simp [display, isWritable]
  | inherited which names attributes => by simp [display, isWritable]

theorem exists_displayAll_iff (hnames : ShortNames methodsOf) : ∀ items : List Value,
    (∃ shown, displayAll methodsOf items = .ok shown) ↔ isWritableAll items = true
  | [] => by simp [displayAll, isWritableAll]
  | v :: vs => by
    rw [isWritableAll, Bool.and_eq_true, ← exists_display_iff hnames v,
      ← exists_displayAll_iff hnames vs]
    simp only [displayAll, bind_eq_ok_iff]
    exact ⟨fun ⟨_, a, ha, as, has, _⟩ => ⟨⟨a, ha⟩, as, has⟩,
      fun ⟨⟨a, ha⟩, as, has⟩ => ⟨_, a, ha, as, has, rfl⟩⟩

theorem exists_displayEntries_iff (hnames : ShortNames methodsOf) :
    ∀ entries : List (Scalar × Value),
    (∃ shown, displayEntries methodsOf entries = .ok shown) ↔ isWritableEntries entries = true
  | [] => by simp [displayEntries, isWritableEntries]
  | (k, v) :: entries => by
    rw [isWritableEntries, Bool.and_eq_true, Bool.and_eq_true, Bool.not_eq_true',
      ← exists_display_iff hnames v, ← exists_displayEntries_iff hnames entries]
    have hkey : (∃ shown, written Scalar.display k = .ok shown) ↔ isLong k = false :=
      exists_written_iff
    rw [← hkey]
    simp only [displayEntries, bind_eq_ok_iff]
    exact ⟨fun ⟨_, a, ha, b, hb, cs, hcs, _⟩ => ⟨⟨⟨a, ha⟩, b, hb⟩, cs, hcs⟩,
      fun ⟨⟨⟨a, ha⟩, b, hb⟩, cs, hcs⟩ => ⟨_, a, ha, b, hb, cs, hcs, rfl⟩⟩

end

mutual

/-- What has a data form can be displayed. -/
theorem isWritable_of_data : ∀ {v : Value} {shown : String}, v.data = .ok shown →
    v.isWritable = true
  | scalar s, shown, h => by
    rw [data, written_eq_ok_iff] at h
    rw [isWritable, h.1]
    rfl
  | list items, shown, h => by
    obtain ⟨_, h, -⟩ := map_eq_ok_iff.mp h
    rw [isWritable, isWritableAll_of_dataAll h]
  | dict entries, shown, h => by
    obtain ⟨_, h, -⟩ := map_eq_ok_iff.mp h
    rw [isWritable, isWritableEntries_of_dataEntries h]

theorem isWritableAll_of_dataAll : ∀ {items : List Value} {shown : List String},
    dataAll items = .ok shown → isWritableAll items = true
  | [], _, _ => rfl
  | v :: vs, shown, h => by
    obtain ⟨a, ha, h⟩ := bind_eq_ok_iff.mp h
    obtain ⟨as, has, -⟩ := bind_eq_ok_iff.mp h
    rw [isWritableAll, isWritable_of_data ha, isWritableAll_of_dataAll has]
    rfl

theorem isWritableEntries_of_dataEntries : ∀ {entries : List (Scalar × Value)}
    {shown : List String}, dataEntries entries = .ok shown → isWritableEntries entries = true
  | [], _, _ => rfl
  | (k, v) :: entries, shown, h => by
    obtain ⟨a, ha, h⟩ := bind_eq_ok_iff.mp h
    obtain ⟨b, hb, h⟩ := bind_eq_ok_iff.mp h
    obtain ⟨cs, hcs, -⟩ := bind_eq_ok_iff.mp h
    rw [isWritableEntries, (written_eq_ok_iff.mp ha).1, isWritable_of_data hb,
      isWritableEntries_of_dataEntries hcs]
    rfl

end

/-- **A trace can show a value exactly if the value can be displayed.** -/
theorem exists_render_iff (hnames : ShortNames methodsOf) (v : Value) :
    (∃ shown, v.render methodsOf = .ok shown) ↔ v.isWritable = true := by
  unfold render
  cases hdata : v.data with
  | ok shown => exact ⟨fun _ => isWritable_of_data hdata, fun _ => ⟨shown, rfl⟩⟩
  | error e => exact exists_display_iff hnames v

/-- A value can stand in a sentence exactly if it can be displayed. -/
theorem exists_plain_iff (hnames : ShortNames methodsOf) (v : Value) :
    (∃ shown, v.plain methodsOf = .ok shown) ↔ v.isWritable = true := by
  unfold plain
  split
  · rw [exists_written_iff, isWritable, Bool.not_eq_true']
  · simp [isWritable]
  · exact exists_display_iff hnames v

/-- A text stands for itself. -/
theorem plain_of_text {v : Value} {x : String} (h : v.text? = some x) :
    v.plain methodsOf = .ok x := by
  cases v with
  | scalar s =>
    have hplain : s.plain = x := by cases s <;> cases h <;> rfl
    rw [plain, written_of_short (isLong_of_text h), hplain]
  | _ => cases h

end Value

/-! ## Sessions -/

/-- A key names a method exactly if it is a text of the right form. -/
theorem Registry.isMethodKey_iff {key : Scalar} :
    isMethodKey key = true ↔ ∃ n, key.text? = some n ∧ isMethodName n.toList = true := by
  unfold isMethodKey
  cases key.text? <;> simp

/-- The names of registered methods are texts. -/
theorem Registry.exists_text_of_mem_names (r : Registry) {name : Scalar} (h : name ∈ r.names) :
    ∃ s, name.text? = some s ∧ isMethodName s.toList = true := by
  obtain ⟨entry, hentry, rfl⟩ := List.mem_map.mp h
  exact isMethodKey_iff.mp (r.sound entry hentry).1

/-- **The names of registered methods are never too long to be written**, for they are texts. -/
theorem Session.shortNames (s : Session) : Value.ShortNames s.methodsOf := by
  intro id name hname
  obtain ⟨text, htext, -⟩ := (s.registry id).exists_text_of_mem_names hname
  exact Value.isLong_of_text htext

end CallScript
