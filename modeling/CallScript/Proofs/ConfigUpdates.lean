import CallScript.Proofs.RegistryHistory

/-!
# Changing the configuration of a registry

The configuration of a registry is changed by overlaying it with fields and checking the whole. So
what is kept is checked again with every change, after it was turned into values. This module shows
that nothing is lost on the way: the value of a field that was checked once is read back as it is
(`CoreConfig.readPositive_float`), and therefore a change is accepted exactly if it names known
fields only and its own values can be read, and then no field changes that it does not name
(`CoreConfig.update_eq_ok_iff`). Two changes that are accepted one after the other are accepted
as one (`CoreConfig.Overlaid.merged`).

An embedding program is given copies of a configuration and may set their fields to anything. Copies
and what the registry keeps are objects in one store (`Objects`), and a program could reach what is
kept if it was ever given that object. It is not: what is kept stays apart from all that is handed
out, and has the fields that the changes alone have left (`Objects.Represents.after`).
-/

namespace CallScript

open CallScript.Action

/-! ## Tables that are overlaid -/

namespace Table

variable {κ α : Type} [Key κ]

/-- **Overlaying**: the last write wins, and what is not written stays. -/
theorem get?_foldl_insert (writes : List (κ × α)) (t : Table κ α) (key : κ) :
    (writes.foldl (fun t e => t.insert e.1 e.2) t).get? key
      = (lastWrite? key writes).or (t.get? key) := by
  induction writes using List.reverseRecOn with
  | nil => rfl
  | append_singleton writes w ih =>
    rw [List.foldl_append, List.foldl_cons, List.foldl_nil, get?_insert, ih, lastWrite?, lastWrite?,
      List.reverse_concat, List.find?_cons]
    cases Key.same w.1 key <;> rfl

/-- Later writes come first. -/
theorem lastWrite?_append (key : κ) (writes writes' : List (κ × α)) :
    lastWrite? key (writes ++ writes') = (lastWrite? key writes').or (lastWrite? key writes) := by
  unfold lastWrite?
  rw [List.reverse_append, List.find?_append, Option.map_or]

/-- There is no last write exactly if no write is of the key. -/
theorem lastWrite?_eq_none_iff {key : κ} {writes : List (κ × α)} :
    lastWrite? key writes = none ↔ ∀ w ∈ writes, Key.same w.1 key = false := by
  unfold lastWrite?
  simp

/-- If every key stands once, then its only write is its last. -/
theorem lastWrite?_of_distinct {key : κ} {entries : List (κ × α)} (h : Distinct entries) :
    lastWrite? key entries = valueIn? key entries := by
  induction h with
  | nil => rfl
  | @cons entry rest hentry _ ih =>
    rw [← List.singleton_append, lastWrite?_append, List.singleton_append, valueIn?]
    by_cases hkey : Key.same entry.1 key = true
    · have hrest : lastWrite? key rest = none := lastWrite?_eq_none_iff.mpr fun w hw => by
        rw [Key.same_comm, ← same_congr hkey]
        exact hentry w hw
      rw [hrest, if_pos hkey]
      simp [lastWrite?, hkey]
    · rw [ih, if_neg hkey]
      simp [lastWrite?, hkey]

/-- Writing each key once, with the value that was written last, leaves the last writes as they
were. -/
theorem lastWrite?_entries_ofList (writes : List (κ × α)) (key : κ) :
    lastWrite? key (ofList writes).entries = lastWrite? key writes := by
  rw [lastWrite?_of_distinct (ofList writes).distinct, ← get?_ofList]
  rfl

theorem mem_names_iff {t : Table String α} {name : String} :
    name ∈ t.names ↔ (t.get? name).isSome = true := by
  have hsame : ∀ x : String, Key.same x name = true ↔ x = name := fun _ => beq_iff_eq
  rw [get?_isSome_iff]
  simp only [hsame, exists_eq_right]

end Table

/-! ## Overlaid configurations -/

namespace CoreConfig

/-- Whether a name is that of a field. -/
def isField (name : String) : Bool := name = debugField || name = timeoutField

/-- How long a configuration waits, which is a positive time. -/
def waiting (c : CoreConfig) : { x : Binary64 // x.isPositive = true } := ⟨c.timeout, c.positive⟩

/-- What a change makes of a field: the last value it gives to the field is read, and a field that
it does not name stays. -/
inductive Takes {α : Type} (read : Value → Except Issue α) (changes : List (String × Value))
    (name : String) (old : α) : α → Prop
  | named {v : Value} {new : α} (hlast : Table.lastWrite? name changes = some v)
      (hread : read v = .ok new) : Takes read changes name old new
  | unnamed (h : ∀ change ∈ changes, change.1 ≠ name) : Takes read changes name old old

/-- **A configuration overlaid with a change**: only known fields are named, and each takes what the
change makes of it. -/
structure Overlaid (c : CoreConfig) (changes : List (String × Value)) (c' : CoreConfig) : Prop where
  known : ∀ change ∈ changes, change.1 = debugField ∨ change.1 = timeoutField
  debug : Takes readFlag changes debugField c.debug c'.debug
  timeout : Takes readPositive changes timeoutField c.waiting c'.waiting

variable {α : Type} {c c' c'' : CoreConfig} {fields : Table String Value}
  {changes changes' : List (String × Value)}

/-- **A configuration is read exactly if both of its fields are** and there are no others. -/
theorem ofFields_eq_ok_iff :
    ofFields fields = .ok c ↔ readField fields debugField false readFlag = .ok c.debug ∧
      readField fields timeoutField ⟨defaultTimeout, isPositive_defaultTimeout⟩ readPositive
        = .ok c.waiting ∧
      unknownFields fields = [] := by
  obtain ⟨debug, timeout, positive⟩ := c
  unfold ofFields waiting
  dsimp only
  cases readField fields debugField false readFlag with
  | error issue => simp
  | ok debug' =>
    cases readField fields timeoutField ⟨defaultTimeout, isPositive_defaultTimeout⟩
        readPositive with
    | error issue => simp
    | ok timeout' => cases unknownFields fields <;> simp [Subtype.ext_iff]

/-- No field is unknown exactly if all are one of the two. -/
theorem unknownFields_eq_nil_iff : unknownFields fields = [] ↔
    ∀ name, (fields.get? name).isSome = true → name = debugField ∨ name = timeoutField := by
  unfold unknownFields
  rw [List.map_eq_nil_iff, List.filter_eq_nil_iff]
  refine forall_congr' fun name => ?_
  rw [Table.mem_names_iff]
  simp [Classical.or_iff_not_imp_left]

/-! ## What a change comes to -/

/-- A waiting time that was accepted is accepted again, and is the same. -/
theorem readPositive_float (c : CoreConfig) : readPositive (.float c.timeout) = .ok c.waiting :=
  dif_pos c.positive

/-- Reading a field of overlaid fields, if its old value can be read. -/
theorem readField_overlaid_iff {read : Value → Except Issue α} {name : String} {v : Value}
    {old new : α} (hv : fields.get? name = some v) (hold : read v = .ok old) (fallback : α) :
    readField (changes.foldl (fun fields e => fields.insert e.1 e.2) fields) name fallback read
      = .ok new ↔ Takes read changes name old new := by
  unfold readField
  rw [Table.get?_foldl_insert, hv]
  cases hlast : Table.lastWrite? name changes with
  | some w =>
    refine ⟨.named hlast, ?_⟩
    rintro (@⟨w', _, hlast', hread⟩ | hunnamed)
    · obtain rfl := Option.some.inj (hlast.symm.trans hlast')
      exact hread
    · have hnone := Table.lastWrite?_eq_none_iff.mpr fun w hw => beq_false_of_ne (hunnamed w hw)
      cases hlast.symm.trans hnone
  | none =>
    show read v = .ok new ↔ _
    rw [hold]
    constructor
    · rintro ⟨⟩
      exact .unnamed fun w hw => ne_of_beq_false (Table.lastWrite?_eq_none_iff.mp hlast w hw)
    · rintro (@⟨w', _, hlast', -⟩ | -)
      · cases hlast.symm.trans hlast'
      · rfl

/-- The fields of a configuration are known, so those that are not come from the change. -/
theorem unknownFields_overlaid_eq_nil_iff :
    unknownFields (changes.foldl (fun fields e => fields.insert e.1 e.2) c.toFields) = []
      ↔ ∀ change ∈ changes, change.1 = debugField ∨ change.1 = timeoutField := by
  rw [unknownFields_eq_nil_iff]
  simp only [Table.get?_foldl_insert, Option.isSome_or, Bool.or_eq_true]
  constructor
  · intro h change hchange
    refine h change.1 (.inl (Option.isSome_iff_ne_none.mpr fun hnone => ?_))
    exact ne_of_beq_false (Table.lastWrite?_eq_none_iff.mp hnone change hchange) rfl
  · rintro h name (hwritten | hkept)
    · by_contra hunknown
      refine Option.isSome_iff_ne_none.mp hwritten (Table.lastWrite?_eq_none_iff.mpr ?_)
      rintro change hchange
      refine beq_false_of_ne ?_
      rintro rfl
      exact hunknown (h change hchange)
    · have hmem : name ∈ [debugField, timeoutField] := Table.mem_names_iff.mpr hkept
      simpa using hmem

/-- **When a change is accepted, and what it comes to.** -/
theorem update_eq_ok_iff : c.update changes = .ok c' ↔ c.Overlaid changes c' := by
  have hdebug : c.toFields.get? debugField = some (.bool c.debug) := rfl
  have hflag : readFlag (.bool c.debug) = .ok c.debug := rfl
  have htimeout : c.toFields.get? timeoutField = some (.float c.timeout) := rfl
  unfold update
  rw [ofFields_eq_ok_iff, unknownFields_overlaid_eq_nil_iff, readField_overlaid_iff hdebug hflag,
    readField_overlaid_iff htimeout c.readPositive_float]
  exact ⟨fun ⟨hdebug, htimeout, hnames⟩ => ⟨hnames, hdebug, htimeout⟩,
    fun ⟨hnames, hdebug, htimeout⟩ => ⟨hdebug, htimeout, hnames⟩⟩

/-- **Two changes as one**: each field has the value that it was given last. -/
def merged (changes changes' : List (String × Value)) : List (String × Value) :=
  (Table.ofList (changes ++ changes')).entries

/-- Of two changes that are merged the second one counts. -/
theorem lastWrite?_merged (name : String) :
    Table.lastWrite? name (merged changes changes')
      = (Table.lastWrite? name changes').or (Table.lastWrite? name changes) := by
  rw [merged, Table.lastWrite?_entries_ofList, Table.lastWrite?_append]

theorem lastWrite?_eq_none_iff_ne {name : String} :
    Table.lastWrite? name changes = none ↔ ∀ change ∈ changes, change.1 ≠ name := by
  rw [Table.lastWrite?_eq_none_iff]
  exact forall₂_congr fun _ _ => beq_eq_false_iff_ne

/-- A field takes from two changes in turn what it takes from them merged. -/
theorem Takes.merged {read : Value → Except Issue α} {name : String} {a b d : α}
    (h : Takes read changes name a b) (h' : Takes read changes' name b d) :
    Takes read (merged changes changes') name a d := by
  cases h' with
  | named hlast hread => exact .named (by rw [lastWrite?_merged, hlast]; rfl) hread
  | unnamed hunnamed' =>
    have hnone' := lastWrite?_eq_none_iff_ne.mpr hunnamed'
    cases h with
    | named hlast hread => exact .named (by rw [lastWrite?_merged, hnone', hlast]; rfl) hread
    | unnamed hunnamed =>
      have hnone := lastWrite?_eq_none_iff_ne.mpr hunnamed
      exact .unnamed (lastWrite?_eq_none_iff_ne.mp (by rw [lastWrite?_merged, hnone', hnone]; rfl))

theorem named_of_mem_merged {change : String × Value} (h : change ∈ merged changes changes') :
    (∃ w ∈ changes, w.1 = change.1) ∨ ∃ w ∈ changes', w.1 = change.1 := by
  by_contra hnot
  simp only [not_or, not_exists, not_and] at hnot
  refine lastWrite?_eq_none_iff_ne.mp ?_ change h rfl
  rw [lastWrite?_merged, lastWrite?_eq_none_iff_ne.mpr hnot.1, lastWrite?_eq_none_iff_ne.mpr hnot.2]
  rfl

/-- **What two changes come to one after the other is what they come to as one.** -/
theorem Overlaid.merged (h : c.Overlaid changes c') (h' : c'.Overlaid changes' c'') :
    c.Overlaid (merged changes changes') c'' := by
  refine ⟨fun change hchange => ?_, h.debug.merged h'.debug, h.timeout.merged h'.timeout⟩
  obtain ⟨w, hw, hname⟩ | ⟨w, hw, hname⟩ := named_of_mem_merged hchange
  · exact hname ▸ h.known w hw
  · exact hname ▸ h'.known w hw

end CoreConfig

/-! ## Changes in a session -/

namespace Core

variable {id : Nat} {s u : Session} {changes changes' : List (String × Value)} {c : CoreConfig}

/-- A change is refused for its name, refused for its values, or it replaces the configuration. -/
theorem perform_updateConfig (id : Nat) (changes : List (String × Value)) (s : Session) :
    (updateConfig id changes).perform s =
      if (changes.map (·.1)).contains "self" then
        (.error (.foreign (.surplusArgument "CoreRegistry.update_config" "self")), s)
      else
        match (s.registry id).config.update changes with
        | .ok c => (.ok c, s.setRegistry id { s.registry id with config := c })
        | .error issues => (.error (.invalid issues), s) := by
  unfold updateConfig Registry.updateConfig
  by_cases hself : (changes.map (·.1)).contains "self" = true
  · rw [if_pos hself, if_pos hself]
    rfl
  · rw [if_neg hself, if_neg hself, perform_bind, perform_get]
    dsimp only
    cases (s.registry id).config.update changes <;> rfl

/-- **A change that is accepted** replaces the configuration and nothing else. -/
theorem perform_updateConfig_of_overlaid (h : (s.registry id).config.Overlaid changes c) :
    (updateConfig id changes).perform s
      = (.ok c, s.setRegistry id { s.registry id with config := c }) := by
  have hself : ¬ (changes.map (·.1)).contains "self" = true := by
    rw [List.contains_iff_mem, List.mem_map]
    rintro ⟨change, hchange, hname⟩
    have hknown := h.known change hchange
    rw [hname] at hknown
    revert hknown
    decide
  rw [perform_updateConfig, if_neg hself, CoreConfig.update_eq_ok_iff.mpr h]

/-- What is accepted is the configuration overlaid with the change. -/
theorem overlaid_of_updateConfig (h : (updateConfig id changes).perform s = (.ok c, u)) :
    (s.registry id).config.Overlaid changes c := by
  rw [perform_updateConfig] at h
  by_cases hself : (changes.map (·.1)).contains "self" = true
  · rw [if_pos hself] at h
    cases h
  · rw [if_neg hself] at h
    refine CoreConfig.update_eq_ok_iff.mp ?_
    cases hupdate : (s.registry id).config.update changes with
    | error issues =>
      rw [hupdate] at h
      cases h
    | ok c' =>
      rw [hupdate] at h
      exact congrArg Except.ok (Except.ok.inj (Prod.mk.inj h).1)

/-- **A change that is refused** leaves the session as it was. Unless it names the one field that is
not free, it raises what is wrong with it. -/
theorem eq_of_updateConfig_error {e : Raised}
    (h : (updateConfig id changes).perform s = (.error e, u)) :
    u = s ∧ ("self" ∉ changes.map (·.1) → ∃ issues, e = .invalid issues) := by
  rw [perform_updateConfig] at h
  by_cases hself : (changes.map (·.1)).contains "self" = true
  · rw [if_pos hself] at h
    exact ⟨(Prod.mk.inj h).2.symm, fun hnot => absurd (List.contains_iff_mem.mp hself) hnot⟩
  · rw [if_neg hself] at h
    cases hupdate : (s.registry id).config.update changes with
    | ok c =>
      rw [hupdate] at h
      cases h
    | error issues =>
      rw [hupdate] at h
      obtain ⟨he, rfl⟩ := Prod.mk.inj h
      exact ⟨rfl, fun _ => ⟨issues, (Except.error.inj he).symm⟩⟩

/-- **How the configuration of a registry can be changed in a session.** Its waiting time is
positive, whatever happened before. -/
structure Configurable (id : Nat) (s : Session) : Prop where
  isPositive : (s.registry id).config.timeout.isPositive = true
  /-- A change is accepted if it can be overlaid. -/
  accepts_iff : ∀ changes c, (∃ u, (updateConfig id changes).perform s = (.ok c, u))
    ↔ (s.registry id).config.Overlaid changes c
  /-- A change that is accepted replaces the configuration and nothing else. -/
  replaces : ∀ changes c u, (updateConfig id changes).perform s = (.ok c, u) →
    u = s.setRegistry id { s.registry id with config := c } ∧ (u.registry id).config = c
  /-- A change that is refused changes nothing. -/
  refuses : ∀ changes e u, (updateConfig id changes).perform s = (.error e, u) →
    u = s ∧ ("self" ∉ changes.map (·.1) → ∃ issues, e = .invalid issues)
  /-- Two changes that are accepted one after the other are accepted as one, with the same
  result. -/
  composes : ∀ changes changes' c c' u u',
    (updateConfig id changes).perform s = (.ok c, u) →
    (updateConfig id changes').perform u = (.ok c', u') →
    (updateConfig id (CoreConfig.merged changes changes')).perform s = (.ok c', u')

variable {c' : CoreConfig} {u' : Session}

/-- What an accepted change leaves. -/
theorem eq_of_updateConfig_ok (h : (updateConfig id changes).perform s = (.ok c, u)) :
    u = s.setRegistry id { s.registry id with config := c } := by
  rw [perform_updateConfig_of_overlaid (overlaid_of_updateConfig h)] at h
  exact (Prod.mk.inj h).2.symm

/-- A change that is accepted replaces the configuration and leaves the methods alone. -/
theorem registry_of_updateConfig (hid : id < s.registries.length)
    (h : (updateConfig id changes).perform s = (.ok c, u)) :
    u.registry id = { s.registry id with config := c } := by
  rw [eq_of_updateConfig_ok h, Session.registry_set rfl hid]

/-- **Two changes that are accepted one after the other are accepted as one.** -/
theorem perform_updateConfig_merged (hid : id < s.registries.length)
    (h : (updateConfig id changes).perform s = (.ok c, u))
    (h' : (updateConfig id changes').perform u = (.ok c', u')) :
    (updateConfig id (CoreConfig.merged changes changes')).perform s = (.ok c', u') := by
  have hfirst := overlaid_of_updateConfig h
  have hsecond := overlaid_of_updateConfig h'
  have hu' := eq_of_updateConfig_ok h'
  rw [registry_of_updateConfig hid h] at hsecond hu'
  rw [perform_updateConfig_of_overlaid (hfirst.merged hsecond), hu', eq_of_updateConfig_ok h,
    Session.setRegistry, Session.setRegistry, Session.setRegistry]
  dsimp only
  rw [List.set_set]

/-- **A registry is configurable at any time**, because its configuration carries its own check. -/
theorem configurable (hid : id < s.registries.length) : Configurable id s where
  isPositive := (s.registry id).config.positive
  accepts_iff _ _ := ⟨fun ⟨_, h⟩ => overlaid_of_updateConfig h,
    fun h => ⟨_, perform_updateConfig_of_overlaid h⟩⟩
  replaces _ _ _ h := ⟨eq_of_updateConfig_ok h, by rw [registry_of_updateConfig hid h]⟩
  refuses _ _ _ := eq_of_updateConfig_error
  composes _ _ _ _ _ _ h h' := perform_updateConfig_merged hid h h'

theorem length_updateConfig (id : Nat) (changes : List (String × Value)) (s : Session) :
    ((updateConfig id changes).perform s).2.registries.length = s.registries.length := by
  cases hperform : (updateConfig id changes).perform s with
  | mk o u =>
    cases o with
    | error e => rw [(eq_of_updateConfig_error hperform).1]
    | ok c => rw [eq_of_updateConfig_ok hperform, Session.setRegistry, List.length_set]

end Core

/-! ## Copies that are handed out -/

/-- **One use of the configuration of a registry.** -/
inductive ConfigStep where
  /-- Asks for a copy. -/
  | read
  /-- Sets a field of a copy, to anything. Only known fields can be set. -/
  | alter (copy : Nat) (field : String) (v : Value)
  /-- Asks for a change, and for a copy if it is accepted. -/
  | update (changes : List (String × Value))

namespace ConfigStep

/-- The session after a use of the configuration of a registry; what it raises is caught. -/
def perform (id : Nat) (s : Session) : ConfigStep → Session
  | update changes => ((Core.updateConfig id changes).perform s).2
  | _ => s

/-- The session after some uses. -/
def after (id : Nat) (steps : List ConfigStep) (s : Session) : Session :=
  steps.foldl (perform id) s

theorem length_after (id : Nat) (steps : List ConfigStep) (s : Session) :
    (after id steps s).registries.length = s.registries.length := by
  induction steps generalizing s with
  | nil => rfl
  | cons step steps ih =>
    rw [after, List.foldl_cons, ← after, ih]
    cases step with
    | update changes => exact Core.length_updateConfig id changes s
    | _ => rfl

/-- The change that a use asks for. -/
def change? : ConfigStep → Option (List (String × Value))
  | update changes => some changes
  | _ => none

/-- **Copies do not affect the session**: it is as the changes alone leave it. -/
theorem after_eq_foldl (id : Nat) (steps : List ConfigStep) (s : Session) :
    after id steps s = (steps.filterMap change?).foldl
      (fun s changes => ((Core.updateConfig id changes).perform s).2) s := by
  induction steps generalizing s with
  | nil => rfl
  | cons step steps ih =>
    rw [after, List.foldl_cons, ← after, ih, List.filterMap_cons]
    cases step <;> rfl

/-- What a use sets in a copy. -/
def alteration? (k : Nat) : ConfigStep → Option (String × Value)
  | alter copy field v =>
    if copy = k && CoreConfig.isField field then some (field, v) else none
  | _ => none

end ConfigStep

/-- **Configurations as objects** with fields: the one that a registry keeps, and those that a
program was given, in order. -/
structure Objects where
  fields : List (Table String Value)
  kept : Nat
  given : List Nat := []

namespace Objects

/-- The configuration that a registry is made with is the object that it keeps. -/
def start (c : CoreConfig) : Objects where
  fields := [c.toFields]
  kept := 0

/-- The fields of what is kept. -/
def keptFields (o : Objects) : Table String Value := o.fields[o.kept]?.getD {}

/-- The fields of a copy. -/
def copy? (o : Objects) (k : Nat) : Option (Table String Value) := o.given[k]?.bind (o.fields[·]?)

/-- Hands out a new object with the fields of what is kept. -/
def handOut (o : Objects) : Objects :=
  { o with fields := o.fields ++ [o.keptFields], given := o.given ++ [o.fields.length] }

/-- Keeps a new object. -/
def keep (o : Objects) (c : CoreConfig) : Objects :=
  { o with fields := o.fields ++ [c.toFields], kept := o.fields.length }

/-- Sets a field of a copy, if the field is known. Whoever refers to the object sees that. -/
def alter (o : Objects) (k : Nat) (field : String) (v : Value) : Objects :=
  match o.given[k]? with
  | some i =>
    if CoreConfig.isField field then
      { o with fields := o.fields.modify i (·.insert field v) }
    else o
  | none => o

/-- **A use of a configuration, object by object.** For a change the fields of what is kept are
overlaid and checked. -/
def perform (o : Objects) : ConfigStep → Objects
  | .read => o.handOut
  | .alter k field v => o.alter k field v
  | .update changes =>
    if (changes.map (·.1)).contains "self" then o
    else
      match CoreConfig.ofFields
          (changes.foldl (fun fields e => fields.insert e.1 e.2) o.keptFields) with
      | .ok c => (o.keep c).handOut
      | .error _ => o

/-- The objects after some uses. -/
def after (o : Objects) (steps : List ConfigStep) : Objects := steps.foldl perform o

/-- **Objects that represent a configuration**: it is what is kept, which is none of the objects
that were handed out. -/
structure Represents (o : Objects) (c : CoreConfig) : Prop where
  kept : o.fields[o.kept]? = some c.toFields
  apart : o.kept ∉ o.given
  nodup : o.given.Nodup
  made : ∀ i ∈ o.given, i < o.fields.length

variable {o : Objects} {c c' : CoreConfig}

namespace Represents

/-- A configuration that nobody was given yet is represented by itself. -/
theorem start (c : CoreConfig) : (start c).Represents c := ⟨rfl, nofun, .nil, nofun⟩

theorem keptFields_eq (h : o.Represents c) : o.keptFields = c.toFields := by
  unfold keptFields
  rw [h.kept]
  rfl

theorem kept_lt (h : o.Represents c) : o.kept < o.fields.length :=
  (List.getElem?_eq_some_iff.mp h.kept).1

/-- What is handed out is new, so it is not what is kept. -/
theorem handOut (h : o.Represents c) : o.handOut.Represents c := by
  refine ⟨?_, ?_, ?_, ?_⟩
  · exact (List.getElem?_append_left h.kept_lt).trans h.kept
  · intro hmem
    obtain hmem | hmem := List.mem_append.mp hmem
    · exact h.apart hmem
    · exact absurd h.kept_lt (List.mem_singleton.mp hmem ▸ Nat.lt_irrefl _)
  · refine List.nodup_append.mpr ⟨h.nodup, List.nodup_singleton _, ?_⟩
    rintro i hi j hj rfl
    exact absurd (h.made i hi) (List.mem_singleton.mp hj ▸ Nat.lt_irrefl _)
  · intro i hi
    show i < (o.fields ++ [o.keptFields]).length
    rw [List.length_append, List.length_singleton]
    obtain hi | hi := List.mem_append.mp hi
    · exact Nat.lt_succ_of_lt (h.made i hi)
    · exact List.mem_singleton.mp hi ▸ Nat.lt_succ_self _

/-- What is kept from now on is new, so it was not handed out. -/
theorem keep (h : o.Represents c) (c' : CoreConfig) : (o.keep c').Represents c' := by
  refine ⟨List.getElem?_concat_length, fun hmem => ?_, h.nodup, fun i hi => ?_⟩
  · exact absurd (h.made _ hmem) (Nat.lt_irrefl _)
  · show i < (o.fields ++ [c'.toFields]).length
    rw [List.length_append]
    exact Nat.lt_add_right 1 (h.made i hi)

/-- A copy that is altered is not what is kept. -/
theorem alter (h : o.Represents c) (k : Nat) (field : String) (v : Value) :
    (o.alter k field v).Represents c := by
  unfold Objects.alter
  cases hk : o.given[k]? with
  | none => exact h
  | some i =>
    have hne : i ≠ o.kept := by
      rintro rfl
      exact h.apart (List.mem_of_getElem? hk)
    dsimp only
    split
    · refine ⟨(List.getElem?_modify_ne _ _ hne).trans h.kept, h.apart, h.nodup, fun j hj => ?_⟩
      show j < (o.fields.modify i _).length
      rw [List.length_modify]
      exact h.made j hj
    · exact h

/-- A change is refused, and nothing happens, or it is accepted, and then a new object is kept and
another one handed out. -/
theorem update_cases {id : Nat} {s : Session} (hid : id < s.registries.length)
    (h : o.Represents (s.registry id).config) (changes : List (String × Value)) :
    (o.perform (.update changes) = o ∧ (ConfigStep.update changes).perform id s = s) ∨
      ∃ c, o.perform (.update changes) = (o.keep c).handOut ∧
        (((ConfigStep.update changes).perform id s).registry id).config = c := by
  unfold Objects.perform ConfigStep.perform
  dsimp only
  rw [Core.perform_updateConfig, h.keptFields_eq, ← CoreConfig.update]
  split
  · exact .inl ⟨rfl, rfl⟩
  · cases (s.registry id).config.update changes with
    | error issues => exact .inl ⟨rfl, rfl⟩
    | ok c => exact .inr ⟨c, rfl, by rw [Session.registry_set rfl hid]⟩

/-- **One use, object by object**, comes to what it comes to in a session. -/
theorem perform {id : Nat} {s : Session} (hid : id < s.registries.length)
    (h : o.Represents (s.registry id).config) (step : ConfigStep) :
    (o.perform step).Represents ((step.perform id s).registry id).config := by
  cases step with
  | read => exact h.handOut
  | alter k field v => exact h.alter k field v
  | update changes =>
    obtain ⟨ho, hs⟩ | ⟨c, ho, hc⟩ := h.update_cases hid changes
    · rw [ho, hs]
      exact h
    · rw [ho, hc]
      exact (h.keep c).handOut

/-- **What a registry keeps is what the changes alone have left.** -/
theorem after {id : Nat} {s : Session} (hid : id < s.registries.length)
    (h : o.Represents (s.registry id).config) (steps : List ConfigStep) :
    (o.after steps).Represents ((ConfigStep.after id steps s).registry id).config := by
  induction steps generalizing o s with
  | nil => exact h
  | cons step steps ih =>
    have hlength := ConfigStep.length_after id [step] s
    exact ih (hlength.symm ▸ hid) (h.perform hid step)

/-! ### What copies have -/

/-- A copy is an object that was handed out. -/
theorem copy?_eq_some_iff {k : Nat} {copy : Table String Value} :
    o.copy? k = some copy ↔ ∃ i, o.given[k]? = some i ∧ o.fields[i]? = some copy :=
  Option.bind_eq_some_iff

/-- What was handed out stays what it was when objects are added. -/
theorem copy?_append {k : Nat} {copy : Table String Value} (hk : o.copy? k = some copy)
    (more : List (Table String Value)) (given : List Nat) (kept : Nat) :
    copy? ⟨o.fields ++ more, kept, o.given ++ given⟩ k = some copy := by
  obtain ⟨i, hgiven, hfields⟩ := copy?_eq_some_iff.mp hk
  refine copy?_eq_some_iff.mpr ⟨i, ?_, ?_⟩
  · exact (List.getElem?_append_left (List.getElem?_eq_some_iff.mp hgiven).1).trans hgiven
  · exact (List.getElem?_append_left (List.getElem?_eq_some_iff.mp hfields).1).trans hfields

/-- No two copies are one object, so what is set in one is set in no other. -/
theorem copy?_alter (h : o.Represents c) {k : Nat} {copy : Table String Value}
    (hk : o.copy? k = some copy) (j : Nat) (field : String) (v : Value) :
    (o.alter j field v).copy? k = some (((ConfigStep.alter j field v).alteration? k).toList.foldl
      (fun copy e => copy.insert e.1 e.2) copy) := by
  obtain ⟨i, hgiven, hfields⟩ := copy?_eq_some_iff.mp hk
  unfold Objects.alter ConfigStep.alteration?
  by_cases hj : j = k
  · subst hj
    rw [hgiven]
    dsimp only
    by_cases hfield : CoreConfig.isField field = true
    · rw [if_pos hfield]
      refine copy?_eq_some_iff.mpr ⟨i, hgiven, ?_⟩
      simp [hfields, hfield]
    · rw [if_neg hfield]
      simp [hk, hfield]
  · simp only [hj, decide_false, Bool.false_and]
    cases hother : o.given[j]? with
    | none => exact hk
    | some i' =>
      have hne : i' ≠ i := by
        rintro rfl
        exact hj ((List.getElem?_inj (List.getElem?_eq_some_iff.mp hother).1 h.nodup).mp
          (hother.trans hgiven.symm))
      dsimp only
      split
      · exact copy?_eq_some_iff.mpr
          ⟨i, hgiven, (List.getElem?_modify_ne _ _ hne).trans hfields⟩
      · exact hk

/-- A copy has what it had before a use, and what that sets in it. -/
theorem copy?_perform (h : o.Represents c) {k : Nat} {copy : Table String Value}
    (hk : o.copy? k = some copy) (step : ConfigStep) :
    (o.perform step).copy? k
      = some ((step.alteration? k).toList.foldl (fun copy e => copy.insert e.1 e.2) copy) := by
  cases step with
  | read => exact copy?_append hk ..
  | alter j field v => exact h.copy?_alter hk j field v
  | update changes =>
    unfold Objects.perform
    dsimp only
    split
    · exact hk
    · split
      · -- first the new object is kept, and then another one handed out
        refine copy?_append (o := o.keep _) ?_ ..
        have hkeep := copy?_append hk [CoreConfig.toFields ‹_›] [] o.fields.length
        rw [List.append_nil] at hkeep
        exact hkeep
      · exact hk

/-- **The registry does not affect copies**: a copy has what it was given and what was set in it. -/
theorem copy?_after {id : Nat} {s : Session} (hid : id < s.registries.length)
    (h : o.Represents (s.registry id).config) {k : Nat} {copy : Table String Value}
    (hk : o.copy? k = some copy) (steps : List ConfigStep) :
    (o.after steps).copy? k
      = some ((steps.filterMap (·.alteration? k)).foldl (fun copy e => copy.insert e.1 e.2)
          copy) := by
  induction steps generalizing o s copy with
  | nil => exact hk
  | cons step steps ih =>
    have hlength := ConfigStep.length_after id [step] s
    refine (ih (hlength.symm ▸ hid) (h.perform hid step) (h.copy?_perform hk step)).trans ?_
    rw [List.filterMap_cons]
    cases step.alteration? k <;> rfl

/-- What is handed out has the fields of what is kept. -/
theorem eq_of_copy?_handOut (h : o.Represents c) {k : Nat} {copy : Table String Value}
    (hk : o.given[k]? = none) (hk' : o.handOut.copy? k = some copy) : copy = c.toFields := by
  obtain ⟨i, hgiven, hfields⟩ := copy?_eq_some_iff.mp hk'
  have hlast : [o.fields.length][k - o.given.length]? = some i :=
    (List.getElem?_append_right (List.getElem?_eq_none_iff.mp hk)).symm.trans hgiven
  obtain rfl := List.mem_singleton.mp (List.mem_of_getElem? hlast)
  exact (Option.some.inj (hfields.symm.trans List.getElem?_concat_length)).trans h.keptFields_eq

/-- **A new copy has the fields of the configuration.** -/
theorem eq_of_copy?_perform {id : Nat} {s : Session} (hid : id < s.registries.length)
    (h : o.Represents (s.registry id).config) {k : Nat} {copy : Table String Value}
    (step : ConfigStep) (hk : o.copy? k = none) (hk' : (o.perform step).copy? k = some copy) :
    copy = ((step.perform id s).registry id).config.toFields := by
  have hnone : o.given[k]? = none := by
    refine Option.eq_none_iff_forall_ne_some.mpr fun i hi => ?_
    have hmade := List.getElem?_eq_getElem (h.made i (List.mem_of_getElem? hi))
    cases hk.symm.trans (copy?_eq_some_iff.mpr ⟨i, hi, hmade⟩)
  cases step with
  | read => exact h.eq_of_copy?_handOut hnone hk'
  | alter j field v =>
    have hgiven : (o.alter j field v).given = o.given := by
      unfold Objects.alter
      split
      · split <;> rfl
      · rfl
    obtain ⟨i, hi, -⟩ := copy?_eq_some_iff.mp hk'
    cases hnone.symm.trans (hgiven ▸ hi)
  | update changes =>
    obtain ⟨ho, -⟩ | ⟨c, ho, hc⟩ := h.update_cases hid changes
    · rw [ho] at hk'
      cases hk.symm.trans hk'
    · rw [ho] at hk'
      rw [hc]
      exact (h.keep c).eq_of_copy?_handOut hnone hk'

end Represents

end Objects

/-! ## Registries that were made with a configuration -/

/-- Registering leaves the configuration alone. -/
theorem Registry.config_of_add {r r' : Registry} {methodsOf : Nat → List Scalar}
    {name method description : Value} (h : r.add methodsOf name method description = .ok r') :
    r'.config = r.config := by
  obtain ⟨next, hnext, hfollows⟩ | ⟨e, he, -⟩ := r.follows_add methodsOf name method description
  · obtain rfl := Except.ok.inj (hnext.symm.trans h)
    cases hfollows <;> rfl
  · cases he.symm.trans h

/-- A registry that is made from a mapping has the configuration that it was given. -/
theorem Registry.config_ofMethods {methodsOf : Nat → List Scalar} {config : CoreConfig}
    {methods : List (Scalar × Value)} {r : Registry}
    (h : Registry.ofMethods methodsOf config methods = .ok r) : r.config = config := by
  unfold Registry.ofMethods at h
  generalize hstart : ({ config := config } : Registry) = start at h
  have hconfig : start.config = config := by rw [← hstart]
  clear hstart
  induction methods generalizing start with
  | nil => exact Except.ok.inj h ▸ hconfig
  | cons entry methods ih =>
    rw [List.foldlM_cons] at h
    cases hadd : start.add methodsOf (.scalar entry.1) entry.2 .null with
    | error e =>
      rw [hadd] at h
      cases h
    | ok next =>
      rw [hadd] at h
      exact ih next h ((config_of_add hadd).trans hconfig)

/-- **Changes of a configuration are checked, atomic and composable.** Let a registry be made with a
configuration, and let it be used in any way: changes may name any fields and give them any values,
copies may be asked for, and their fields may be set to anything. The registry has the configuration
that it was given, and then what the changes alone have left: the object that it keeps is none of
those that were handed out. A copy has the fields of the configuration at the time, and then what
was set in it. At any time the waiting time is positive. A change is then accepted exactly if it
names known fields only and the values it gives can be read; it replaces the fields that it names
and nothing else. One that is refused changes nothing. And two changes that are accepted one after
the other would be accepted as one, with the same result. -/
theorem config_changes_are_atomic (config : CoreConfig) (methods : List (Scalar × Value))
    (s t : Session) (id : Nat) (hcreate : (Core.create config methods).perform s = (.ok id, t))
    (steps : List ConfigStep) :
    (t.registry id).config = config ∧
    ConfigStep.after id steps t = (steps.filterMap ConfigStep.change?).foldl
      (fun s changes => ((Core.updateConfig id changes).perform s).2) t ∧
    ((Objects.start config).after steps).Represents
      ((ConfigStep.after id steps t).registry id).config ∧
    (∀ step k copy, ((Objects.start config).after steps).copy? k = none →
      (((Objects.start config).after steps).perform step).copy? k = some copy →
      copy = ((step.perform id (ConfigStep.after id steps t)).registry id).config.toFields) ∧
    (∀ (k : Nat) (copy : Table String Value) (more : List ConfigStep),
      ((Objects.start config).after steps).copy? k = some copy →
      ((Objects.start config).after (steps ++ more)).copy? k = some
        ((more.filterMap (·.alteration? k)).foldl (fun copy e => copy.insert e.1 e.2) copy)) ∧
    Core.Configurable id (ConfigStep.after id steps t) := by
  obtain ⟨hid, hmade⟩ := Core.registry_of_create hcreate
  have hconfig := Registry.config_ofMethods hmade
  have hstart : (Objects.start config).Represents (t.registry id).config :=
    hconfig.symm ▸ Objects.Represents.start config
  have hafter := hstart.after hid steps
  have hid' : id < (ConfigStep.after id steps t).registries.length :=
    (ConfigStep.length_after id steps t).symm ▸ hid
  refine ⟨hconfig, ConfigStep.after_eq_foldl id steps t, hafter,
    fun step k copy => hafter.eq_of_copy?_perform hid' step, fun k copy more hcopy => ?_,
    Core.configurable hid'⟩
  rw [Objects.after, List.foldl_append]
  exact hafter.copy?_after hid' hcopy more

/-- A configuration that waits for ever. -/
def patientConfig : CoreConfig := ⟨true, .infinite false, rfl⟩

/-- The session in which a registry was made with it. -/
def patientSession : Session := ((Core.create patientConfig []).perform {}).2

/-- Of these changes only the first is accepted. The copy that it gives is altered. -/
def patientSteps : List ConfigStep :=
  [.update [("debug", .text "OFF")], .update [("timeout", .float .nan), ("debug", .bool true)],
    .alter 0 "timeout" .null, .update [("retries", .int 3)], .update [("self", .null)]]

/-- What is left is what the first change has made of the configuration, though the copy has changed
since. -/
theorem patientConfig_changes_are_atomic :
    (Core.create patientConfig []).perform {} = (.ok 0, patientSession) ∧
    ((ConfigStep.after 0 patientSteps patientSession).registry 0).config
      = ⟨false, .infinite false, rfl⟩ ∧
    (((Objects.start patientConfig).after patientSteps).copy? 0).bind (·.get? "timeout")
      = some .null ∧
    ((Objects.start patientConfig).after patientSteps).Represents
      ((ConfigStep.after 0 patientSteps patientSession).registry 0).config ∧
    Core.Configurable 0 (ConfigStep.after 0 patientSteps patientSession) := by
  have hcreate : (Core.create patientConfig []).perform {} = (.ok 0, patientSession) := rfl
  obtain ⟨-, -, hrepresents, -, -, hconfigurable⟩ :=
    config_changes_are_atomic patientConfig [] {} patientSession 0 hcreate patientSteps
  exact ⟨hcreate, rfl, rfl, hrepresents, hconfigurable⟩

end CallScript
