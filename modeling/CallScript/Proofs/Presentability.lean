import CallScript.Proofs.Invariants

/-!
# Values that stay presentable

Whether a value can be written says nothing about the values that come out of it: a mapping may be
written by its keys alone, while its methods answer what has no text. A value is *presentable*
(`Value.isPresentable`) if it can be written and all that it holds is presentable too. Such values
are a class that a run does not leave (`Value.hereditary_isPresentable`).
-/

namespace CallScript.Value

mutual

/-- **Whether a value and all that it holds can be written.** -/
def isPresentable : Value → Bool
  | scalar s => !isLong s
  | list items => isPresentableAll items
  | dict entries => isPresentableEntries entries
  | view entries => isPresentableEntries entries
  | handle (.mute _ _ _) => false
  | toolbox entries => isPresentableEntries entries
  | object names attributes => names.all (·.text?.isSome) && isPresentableAttributes attributes
  | inherited _ names attributes => names.all (!isLong ·) && isPresentableAttributes attributes
  | _ => true

/-- Whether values are presentable. -/
def isPresentableAll : List Value → Bool
  | [] => true
  | v :: vs => isPresentable v && isPresentableAll vs

/-- Whether entries are presentable. -/
def isPresentableEntries : List (Scalar × Value) → Bool
  | [] => true
  | (k, v) :: entries => !isLong k && isPresentable v && isPresentableEntries entries

/-- Whether attributes are presentable. -/
def isPresentableAttributes : List (String × Value) → Bool
  | [] => true
  | (_, v) :: attributes => isPresentable v && isPresentableAttributes attributes

end

theorem isPresentable_scalar_iff {s : Scalar} :
    (scalar s).isPresentable = true ↔ isLong s = false := by
  rw [isPresentable, Bool.not_eq_true']

theorem isPresentableAll_iff {items : List Value} :
    isPresentableAll items = true ↔ ∀ v ∈ items, v.isPresentable = true := by
  induction items with
  | nil => simp [isPresentableAll]
  | cons v vs ih => rw [isPresentableAll, Bool.and_eq_true, ih, List.forall_mem_cons]

/-- Entries are presentable exactly if their keys are short and their values are. -/
theorem isPresentableEntries_iff {entries : List (Scalar × Value)} :
    isPresentableEntries entries = true ↔
      ∀ e ∈ entries, isLong e.1 = false ∧ e.2.isPresentable = true := by
  induction entries with
  | nil => simp [isPresentableEntries]
  | cons e entries ih =>
    obtain ⟨k, v⟩ := e
    rw [isPresentableEntries, Bool.and_eq_true, Bool.and_eq_true, ih, List.forall_mem_cons,
      Bool.not_eq_true']

theorem isPresentableAttributes_iff {attributes : List (String × Value)} :
    isPresentableAttributes attributes = true ↔ ∀ a ∈ attributes, a.2.isPresentable = true := by
  induction attributes with
  | nil => simp [isPresentableAttributes]
  | cons a attributes ih =>
    obtain ⟨name, v⟩ := a
    rw [isPresentableAttributes, Bool.and_eq_true, ih, List.forall_mem_cons]

mutual

/-- What is presentable can be written. -/
theorem isWritable_of_isPresentable : ∀ {v : Value}, v.isPresentable = true → v.isWritable = true
  | scalar _, h => h
  | list _, h => isWritableAll_of_isPresentableAll h
  | dict _, h => isWritableEntries_of_isPresentableEntries h
  | view _, h => isWritableEntries_of_isPresentableEntries h
  | toolbox entries, h => by
    rw [isPresentable, isPresentableEntries_iff] at h
    rw [isWritable, List.all_eq_true]
    exact fun e he => isPresentable_scalar_iff.mpr (h e he).1
  | object _ _, h => (Bool.and_eq_true_iff.mp h).1
  | handle (.shown _), _ => rfl
  | handle (.moment _), _ => rfl
  | undefined, _ => rfl
  | registry _, _ => rfl
  | method _, _ => rfl
  | inherited _ _ _, _ => rfl

theorem isWritableAll_of_isPresentableAll : ∀ {items : List Value},
    isPresentableAll items = true → isWritableAll items = true
  | [], _ => rfl
  | _ :: _, h => by
    rw [isPresentableAll, Bool.and_eq_true] at h
    rw [isWritableAll, isWritable_of_isPresentable h.1, isWritableAll_of_isPresentableAll h.2]
    rfl

theorem isWritableEntries_of_isPresentableEntries : ∀ {entries : List (Scalar × Value)},
    isPresentableEntries entries = true → isWritableEntries entries = true
  | [], _ => rfl
  | (_, _) :: _, h => by
    rw [isPresentableEntries, Bool.and_eq_true, Bool.and_eq_true] at h
    rw [isWritableEntries, h.1.1, isWritable_of_isPresentable h.1.2,
      isWritableEntries_of_isPresentableEntries h.2]
    rfl

end

/-! ## What comes out of a presentable value -/

/-- A method that is found in a table is an entry of it. -/
theorem isPresentable_of_valueIn? {entries : List (Scalar × Value)} {name : Scalar} {m : Value}
    (h : isPresentableEntries entries = true)
    (hm : (Table.valueIn? name entries).bind ifCallable = some m) : m.isPresentable = true := by
  obtain ⟨v, hv, hcallable⟩ := Option.bind_eq_some_iff.mp hm
  obtain ⟨x, hx, -⟩ := Table.exists_mem_of_valueIn? hv
  unfold ifCallable at hcallable
  split at hcallable
  · obtain rfl := Option.some.inj hcallable
    exact (isPresentableEntries_iff.mp h _ hx).2
  · cases hcallable

/-- A method of an object is an attribute of it, or is inherited and holds the object. -/
theorem isPresentable_of_objectMethod? {names : List Scalar} {attributes : List (String × Value)}
    (hnames : ∀ s ∈ names, isLong s = false)
    (hattributes : isPresentableAttributes attributes = true) {name : String} {m : Value}
    (hm : objectMethod? names attributes name = some m) : m.isPresentable = true := by
  unfold objectMethod? at hm
  split at hm
  · obtain ⟨v, hv, hcallable⟩ := Option.bind_eq_some_iff.mp hm
    have hpresentable : v.isPresentable = true := by
      unfold attribute? at hv
      split at hv
      · next w hw =>
        obtain rfl := Option.some.inj hv
        obtain ⟨before, after, rfl, -⟩ := List.lookup_eq_some_iff.mp hw
        exact isPresentableAttributes_iff.mp hattributes (name, w)
          (List.mem_append_right _ List.mem_cons_self)
      · obtain ⟨which, -, rfl⟩ := Option.map_eq_some_iff.mp hv
        simpa [isPresentable, hattributes] using hnames
    unfold ifCallable at hcallable
    split at hcallable
    · exact Option.some.inj hcallable ▸ hpresentable
    · cases hcallable
  · cases hm

theorem isLong_eq_false_of_texts {names : List Scalar}
    (h : names.all (·.text?.isSome) = true) : ∀ s ∈ names, isLong s = false := by
  intro s hs
  obtain ⟨text, htext⟩ := Option.isSome_iff_exists.mp (List.all_eq_true.mp h s hs)
  exact isLong_of_text htext

/-- What a value can be gone through by is part of it, or a character of it. -/
theorem isPresentable_of_items? {v : Value} {items : List Value} (hv : v.isPresentable = true)
    (h : v.items? = some items) : ∀ x ∈ items, x.isPresentable = true := by
  have hkeys : ∀ {entries : List (Scalar × Value)}, isPresentableEntries entries = true →
      ∀ x ∈ entries.map (scalar ·.1), x.isPresentable = true := by
    intro entries hentries x hx
    obtain ⟨e, he, rfl⟩ := List.mem_map.mp hx
    exact isPresentable_scalar_iff.mpr (isPresentableEntries_iff.mp hentries e he).1
  cases v with
  | scalar s =>
    obtain ⟨text, -, rfl⟩ := Option.map_eq_some_iff.mp h
    intro x hx
    obtain ⟨c, -, rfl⟩ := List.mem_map.mp hx
    rfl
  | list items' =>
    obtain rfl := Option.some.inj h
    exact isPresentableAll_iff.mp hv
  | dict entries =>
    obtain rfl := Option.some.inj h
    exact hkeys hv
  | view entries =>
    obtain rfl := Option.some.inj h
    exact hkeys hv
  | _ => cases h

theorem isPresentable_of_pairEntries {position : Nat} {item : Value}
    {entries : List (Scalar × Value)} (hitem : item.isPresentable = true)
    (h : pairEntries position item = .ok entries) : isPresentableEntries entries = true := by
  unfold pairEntries at h
  split at h
  · next first second hitems =>
    obtain ⟨key, hkey, rfl⟩ := map_eq_ok_iff.mp h
    have hparts := isPresentable_of_items? hitem hitems
    rw [List.forall_mem_cons, List.forall_mem_singleton] at hparts
    cases first with
    | scalar s =>
      obtain rfl := Except.ok.inj hkey
      exact isPresentableEntries_iff.mpr (by simpa [isPresentable] using hparts)
    | list items => cases hkey
    | dict entries => cases hkey
    | view entries => cases hkey
    | _ =>
      obtain rfl := Except.ok.inj hkey
      rfl
  · cases h
  · cases h

/-- Pairs of presentable values are presentable entries. The induction is on the pairs. -/
theorem isPresentable_of_pairsEntries : ∀ {items : List Value} {position : Nat}
    {entries : List (Scalar × Value)}, (∀ x ∈ items, x.isPresentable = true) →
      pairsEntries position items = .ok entries → isPresentableEntries entries = true
  | [], _, _, _, h => by
    obtain rfl := Except.ok.inj h
    rfl
  | item :: rest, position, _, hitems, h => by
    rw [List.forall_mem_cons] at hitems
    obtain ⟨first, hfirst, h⟩ := bind_eq_ok_iff.mp h
    obtain ⟨more, hmore, h⟩ := bind_eq_ok_iff.mp h
    obtain rfl := Except.ok.inj h
    have hfirst := isPresentableEntries_iff.mp (isPresentable_of_pairEntries hitems.1 hfirst)
    have hmore := isPresentableEntries_iff.mp (isPresentable_of_pairsEntries hitems.2 hmore)
    exact isPresentableEntries_iff.mpr (List.forall_mem_append.mpr ⟨hfirst, hmore⟩)

/-- A mapping made of a presentable value is presentable. -/
theorem isPresentable_of_mapping {v : Value} {entries : List (Scalar × Value)}
    (hv : v.isPresentable = true) (h : v.mapping = .ok entries) :
    isPresentableEntries entries = true := by
  unfold mapping at h
  split at h
  · exact Except.ok.inj h ▸ hv
  · exact Except.ok.inj h ▸ hv
  · split at h
    · next items hitems =>
      obtain ⟨pairs, hpairs, rfl⟩ := map_eq_ok_iff.mp h
      have hentries := isPresentableEntries_iff.mp
        (isPresentable_of_pairsEntries (isPresentable_of_items? hv hitems) hpairs)
      exact isPresentableEntries_iff.mpr
        (Table.forall_mem_ofList (P := (isLong · = false)) (Q := (isPresentable · = true)) hentries)
    · cases h

/-- **Runs do not leave the presentable values.** -/
theorem hereditary_isPresentable : Hereditary fun v => v.isPresentable = true where
  short h := isPresentable_scalar_iff.mpr h
  undefined := rfl
  exposed {registries v m name} hv hregistries hm := by
    cases v with
    | toolbox entries => exact isPresentable_of_valueIn? hv hm
    | dict entries => exact isPresentable_of_valueIn? hv hm
    | view entries => exact isPresentable_of_valueIn? hv hm
    -- a registry is no part of the value that refers to it
    | registry id => exact hregistries id name m hm
    | object names attributes =>
      rw [isPresentable, Bool.and_eq_true] at hv
      obtain ⟨text, -, hm⟩ := Option.bind_eq_some_iff.mp hm
      exact isPresentable_of_objectMethod? (isLong_eq_false_of_texts hv.1) hv.2 hm
    | _ => cases hm
  inherited {which names attributes arguments result} hv harguments h := by
    rw [isPresentable, Bool.and_eq_true, List.all_eq_true] at hv
    have hnames : ∀ s ∈ names, isLong s = false := fun s hs =>
      isPresentable_scalar_iff.mp (hv.1 s hs)
    unfold Host.inheritedResult at h
    split at h
    · -- the names of the object
      obtain rfl := Except.ok.inj h
      rw [isPresentable, isPresentableAll_iff]
      intro x hx
      obtain ⟨s, hs, rfl⟩ := List.mem_map.mp hx
      exact isPresentable_scalar_iff.mpr (hnames s hs)
    · -- the method that is asked for, or nothing
      unfold Host.methodAsked at h
      split at h
      · split at h
        · next text _ =>
          obtain rfl := Except.ok.inj h
          cases hmethod : objectMethod? names attributes text with
          | none => rfl
          | some m => exact isPresentable_of_objectMethod? hnames hv.2 hmethod
        · split at h
          · cases h
          · obtain rfl := Except.ok.inj h
            rfl
      · obtain rfl := Except.ok.inj h
        rfl
    · next methods =>
      -- an object made of a mapping, which is an argument
      obtain ⟨entries, hentries, rfl⟩ := map_eq_ok_iff.mp h
      exact isPresentable_of_mapping (harguments methods List.mem_cons_self) hentries
    · cases h

end CallScript.Value
