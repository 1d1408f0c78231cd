/-!
# Tables

A table binds keys to values and remembers the order in which the keys were first bound. Binding a
bound key again replaces its value in place, and the key itself stays the one that was bound first;
a key that was erased and bound again goes last.

What counts as one key depends on the kind of key, so a table works over any type with a notion of
*sameness*. It is symmetric and transitive, but a key need not be the same as itself. No two
entries of a table have keys that are one.
-/

namespace CallScript

/-- A type whose members can be keys. -/
class Key (κ : Type) where
  /-- Whether two keys are one. -/
  same : κ → κ → Bool
  same_comm (a b : κ) : same a b = same b a
  same_trans {a b c : κ} : same a b = true → same b c = true → same a c = true

instance : Key String where
  same a b := a == b
  same_comm _ _ := BEq.comm
  same_trans := PartialEquivBEq.trans

/-- Every key stands once. -/
def Table.Distinct {κ α : Type} [Key κ] (entries : List (κ × α)) : Prop :=
  entries.Pairwise fun x y => Key.same x.1 y.1 = false

/-- Values by key, in the order of first binding. -/
@[ext] structure Table (κ α : Type) [Key κ] where
  entries : List (κ × α)
  distinct : Table.Distinct entries

namespace Table

variable {κ α : Type} [Key κ]

/-- The table without keys. -/
instance : EmptyCollection (Table κ α) := ⟨⟨[], .nil⟩⟩

/-- Replaces the value of the first entry of a key, or adds an entry at the end. -/
def insertEntry (key : κ) (a : α) : List (κ × α) → List (κ × α)
  | [] => [(key, a)]
  | entry :: rest =>
    if Key.same entry.1 key then (entry.1, a) :: rest else entry :: insertEntry key a rest

/-- The value of the first entry of a key. -/
def valueIn? (key : κ) : List (κ × α) → Option α
  | [] => none
  | entry :: rest => if Key.same entry.1 key then some entry.2 else valueIn? key rest

/-- An entry after a replacement is the new one, or it was there before. -/
theorem mem_insertEntry {key : κ} {a : α} {entries : List (κ × α)} {entry : κ × α}
    (h : entry ∈ insertEntry key a entries) :
    entry ∈ entries ∨ entry.2 = a ∧ (entry.1 = key ∨ ∃ old ∈ entries,
      entry.1 = old.1 ∧ Key.same old.1 key = true) := by
  induction entries with
  | nil => simp_all [insertEntry]
  | cons first rest ih =>
    rw [insertEntry] at h
    by_cases hkey : Key.same first.1 key = true
    · rw [if_pos hkey] at h
      obtain rfl | h := List.mem_cons.mp h
      · exact .inr ⟨rfl, .inr ⟨first, List.mem_cons_self, rfl, hkey⟩⟩
      · exact .inl (List.mem_cons_of_mem _ h)
    · rw [if_neg hkey] at h
      obtain rfl | h := List.mem_cons.mp h
      · exact .inl List.mem_cons_self
      · obtain h | ⟨ha, hold⟩ := ih h
        · exact .inl (List.mem_cons_of_mem _ h)
        · refine .inr ⟨ha, hold.imp_right ?_⟩
          rintro ⟨old, hold, hsame⟩
          exact ⟨old, List.mem_cons_of_mem _ hold, hsame⟩

/-- A replacement leaves every key standing once. -/
theorem Distinct.insertEntry {entries : List (κ × α)} (h : Distinct entries) (key : κ) (a : α) :
    Distinct (insertEntry key a entries) := by
  induction h with
  | nil => exact List.pairwise_singleton _ _
  | @cons first rest hfirst hrest ih =>
    rw [Table.insertEntry]
    by_cases hkey : Key.same first.1 key = true
    · rw [if_pos hkey]
      exact .cons hfirst hrest
    · rw [if_neg hkey]
      refine .cons (fun entry hentry => ?_) ih
      obtain hold | ⟨-, hnew | ⟨old, hold, hnew, -⟩⟩ := mem_insertEntry hentry
      · exact hfirst entry hold
      · rwa [hnew, ← Bool.not_eq_true]
      · rw [hnew]
        exact hfirst old hold

/-- Binds a key. -/
def insert (t : Table κ α) (key : κ) (a : α) : Table κ α :=
  ⟨insertEntry key a t.entries, t.distinct.insertEntry key a⟩

/-- Removes a key. -/
def erase (t : Table κ α) (key : κ) : Table κ α :=
  ⟨t.entries.filter (!Key.same ·.1 key), t.distinct.filter _⟩

/-- The value of a key. -/
def get? (t : Table κ α) (key : κ) : Option α :=
  valueIn? key t.entries

/-- The bound keys, in order. -/
def names (t : Table κ α) : List κ := t.entries.map (·.1)

/-- Whether a key is bound. -/
def contains (t : Table κ α) (key : κ) : Bool := (t.get? key).isSome

/-- How many keys are bound. -/
def size (t : Table κ α) : Nat := t.entries.length

/-- Binds the keys of a list one after the other. -/
def ofList (entries : List (κ × α)) : Table κ α :=
  entries.foldl (fun t e => t.insert e.1 e.2) {}

/-! ## Laws -/

@[simp] theorem entries_empty : (∅ : Table κ α).entries = [] := rfl

@[simp] theorem names_empty : (∅ : Table κ α).names = [] := rfl

@[simp] theorem get?_empty (key : κ) : (∅ : Table κ α).get? key = none := rfl

theorem exists_mem_of_valueIn? {key : κ} {entries : List (κ × α)} {a : α}
    (h : valueIn? key entries = some a) : ∃ x, (x, a) ∈ entries ∧ Key.same x key = true := by
  induction entries with
  | nil => cases h
  | cons entry rest ih =>
    rw [valueIn?] at h
    by_cases hkey : Key.same entry.1 key = true
    · rw [if_pos hkey] at h
      exact ⟨entry.1, Option.some.inj h ▸ List.mem_cons_self, hkey⟩
    · rw [if_neg hkey] at h
      obtain ⟨x, hx, hsame⟩ := ih h
      exact ⟨x, List.mem_cons_of_mem _ hx, hsame⟩

/-- What is true of all keys and values of a list is true of those of its table. -/
theorem forall_mem_ofList {P : κ → Prop} {Q : α → Prop} {entries : List (κ × α)}
    (h : ∀ e ∈ entries, P e.1 ∧ Q e.2) : ∀ e ∈ (ofList entries).entries, P e.1 ∧ Q e.2 := by
  unfold ofList
  have hstart : ∀ e ∈ (∅ : Table κ α).entries, P e.1 ∧ Q e.2 := by simp
  generalize (∅ : Table κ α) = t at hstart
  induction entries generalizing t with
  | nil => exact hstart
  | cons entry rest ih =>
    rw [List.forall_mem_cons] at h
    refine ih h.2 _ fun e he => ?_
    obtain hold | ⟨ha, hkey | ⟨old, hold, hkey, -⟩⟩ := mem_insertEntry he
    · exact hstart e hold
    · exact ⟨hkey ▸ h.1.1, ha ▸ h.1.2⟩
    · exact ⟨hkey ▸ (hstart old hold).1, ha ▸ h.1.2⟩

/-- Two keys that are one are the same as the same keys. -/
theorem same_congr {a b : κ} (h : Key.same a b = true) (c : κ) :
    Key.same a c = Key.same b c := by
  have hba : Key.same b a = true := by rw [Key.same_comm]; exact h
  cases hb : Key.same b c with
  | true => exact Key.same_trans h hb
  | false =>
    cases ha : Key.same a c with
    | false => rfl
    | true => rw [Key.same_trans hba ha] at hb; exact hb

/-- If every key stands once, the value of a key does not depend on the order of the entries. -/
theorem valueIn?_of_mem {key : κ} {entries : List (κ × α)} (hdistinct : Distinct entries)
    {entry : κ × α} (hmem : entry ∈ entries) (hkey : Key.same entry.1 key = true) :
    valueIn? key entries = some entry.2 := by
  induction hdistinct with
  | nil => cases hmem
  | @cons first rest hfirst _ ih =>
    rw [valueIn?]
    rcases List.mem_cons.mp hmem with rfl | hrest
    · rw [if_pos hkey]
    · have hother : ¬ Key.same first.1 key = true := by
        rw [Key.same_comm, ← same_congr hkey, Key.same_comm, hfirst entry hrest]
        exact Bool.false_ne_true
      rw [if_neg hother, ih hrest]

theorem valueIn?_insertEntry (key query : κ) (a : α) (entries : List (κ × α)) :
    valueIn? query (insertEntry key a entries) =
      if Key.same key query then some a else valueIn? query entries := by
  induction entries with
  | nil => rfl
  | cons entry rest ih =>
    by_cases hk : Key.same entry.1 key = true
    · rw [insertEntry, if_pos hk, valueIn?, valueIn?, same_congr hk]
      split <;> rfl
    · rw [insertEntry, if_neg hk, valueIn?, valueIn?, ih]
      by_cases hq : Key.same entry.1 query = true
      · have hne : ¬ Key.same key query = true := by
          intro h
          rw [same_congr hq] at hk
          exact hk (by rw [Key.same_comm]; exact h)
        rw [if_pos hq, if_neg hne, if_pos hq]
      · rw [if_neg hq, if_neg hq]

/-- A bound key has the value it was last bound to; the other keys keep theirs. -/
theorem get?_insert (t : Table κ α) (key query : κ) (a : α) :
    (t.insert key a).get? query = if Key.same key query then some a else t.get? query :=
  valueIn?_insertEntry key query a t.entries

theorem map_fst_insertEntry (key : κ) (a : α) (entries : List (κ × α)) :
    (insertEntry key a entries).map (·.1) =
      if (valueIn? key entries).isSome then entries.map (·.1)
      else entries.map (·.1) ++ [key] := by
  induction entries with
  | nil => rfl
  | cons entry rest ih =>
    by_cases hk : Key.same entry.1 key = true
    · simp [insertEntry, valueIn?, hk]
    · rw [insertEntry, if_neg hk, valueIn?, if_neg hk, List.map_cons, ih]
      split <;> rfl

/-- A bound key keeps its place and a new one goes last. -/
theorem names_insert (t : Table κ α) (key : κ) (a : α) :
    (t.insert key a).names = if t.contains key then t.names else t.names ++ [key] :=
  map_fst_insertEntry key a t.entries

/-- The keys that stay when one is removed, in their order. -/
theorem names_erase (t : Table κ α) (key : κ) :
    (t.erase key).names = t.names.filter (!Key.same · key) := by
  unfold names
  rw [List.filter_map]
  rfl

theorem valueIn?_filter (key query : κ) (entries : List (κ × α)) :
    valueIn? query (entries.filter (!Key.same ·.1 key)) =
      if Key.same key query then none else valueIn? query entries := by
  induction entries with
  | nil => simp [valueIn?]
  | cons entry rest ih =>
    by_cases hk : Key.same entry.1 key = true
    · rw [List.filter_cons_of_neg (by simp [hk]), ih, valueIn?, same_congr hk]
      split <;> simp_all
    · rw [List.filter_cons_of_pos (by simp [hk]), valueIn?, valueIn?, ih]
      by_cases hq : Key.same entry.1 query = true
      · have hne : ¬ Key.same key query = true := by
          intro h
          rw [same_congr hq] at hk
          exact hk (by rw [Key.same_comm]; exact h)
        rw [if_pos hq, if_neg hne, if_pos hq]
      · rw [if_neg hq, if_neg hq]

/-- A removed key is not bound; the other keys keep their values. -/
theorem get?_erase (t : Table κ α) (key query : κ) :
    (t.erase key).get? query = if Key.same key query then none else t.get? query :=
  valueIn?_filter key query t.entries

end Table

end CallScript
