import CallScript.Proofs.TreeDrawings
import CallScript.Proofs.Writability

/-!
# What data tells

The data form of a value tells the value: integers and numbers stay apart, and a text is itself
however much it looks like a list or a number. Two values with one data form can differ only where
data does not see a difference – numbers that are displayed alike, or a text and a name that stands
for itself (`Value.Same`).

Data stands in data, so the form of a value has to tell not only the value but also where the form
ends (`Data.Tells`). It does if what follows is a separator or a closing bracket. The first
character of a form tells the sort of the data. A text is read up to its closing quote, and a number
goes on as long as there are characters of numbers (`Scalar.same_of_data_append`). A sequence ends
where a closing bracket stands in the place of a separator (`Data.forall₂_of_joinWith`); this one
statement serves lists, dictionaries and the arguments of a call. Values follow by induction on
their depth (`Value.Plain.tells`).

A value that holds anything else at any depth has no data form at all, and then it is displayed as a
whole (`Value.HoldsForeign.render_eq`). An integer of too many digits has no form of any kind, so
data that holds one is in no trace (`Value.Plain.shows_of_render`).
-/

namespace CallScript

/-! ## Numbers as data -/

namespace Binary64

/-- The text of a number has a point or an exponent, which no integer has. -/
theorem exists_mark_magnitudeText (units : Nat) :
    ∃ c ∈ magnitudeText units, c = '.' ∨ c = 'e' := by
  have hpositional : ∀ digits point, '.' ∈ positional digits point := by
    intro digits point
    unfold positional
    split
    · simp
    · dsimp only
      split <;> simp
  have hscientific : ∀ digits point, 'e' ∈ scientific digits point := by
    intro digits point
    simp [scientific]
  rw [magnitudeText]
  split
  · exact ⟨'.', by simp, .inl rfl⟩
  · dsimp only
    split
    · exact ⟨'.', hpositional _ _, .inl rfl⟩
    · exact ⟨'e', hscientific _ _, .inr rfl⟩

theorem mem_signed {c : Char} {text : List Char} (h : c ∈ text) (negative : Bool) :
    c ∈ signed negative text := by
  unfold signed
  split
  · exact List.mem_cons_of_mem _ h
  · exact h

/-- The characters that integers are written with. -/
def isIntegerChar (c : Char) : Bool := c.isDigit || c = '-'

/-- **A number is never written as an integer is.** -/
theorem exists_not_isIntegerChar (x : Binary64) :
    ∃ c ∈ x.data.toList, isIntegerChar c = false := by
  cases x with
  | nan => exact ⟨'N', by decide, rfl⟩
  | infinite negative =>
    refine ⟨'I', ?_, rfl⟩
    rw [data, written, String.toList_ofList]
    cases negative <;> decide
  | finite negative units magnitude =>
    obtain ⟨c, hc, hmark⟩ := exists_mark_magnitudeText units
    refine ⟨c, ?_, by obtain rfl | rfl := hmark <;> rfl⟩
    rw [data, written, String.toList_ofList]
    exact mem_signed hc negative

end Binary64

/-! ## Integers as data -/

theorem isIntegerChar_of_mem_toString (n : Int) :
    ∀ c ∈ (toString n).toList, Binary64.isIntegerChar c = true := by
  have hdigits : ∀ m : Nat, ∀ c ∈ m.repr.toList, Binary64.isIntegerChar c = true := by
    intro m c hc
    rw [Nat.toList_repr] at hc
    rw [Binary64.isIntegerChar, Nat.isDigit_of_mem_toDigits (by decide) (by decide) hc]
    rfl
  rw [Int.toString_eq_repr, Int.repr_eq_if]
  split
  · exact hdigits _
  · rw [String.toList_append]
    exact List.forall_mem_append.mpr ⟨by simp [Binary64.isIntegerChar], hdigits _⟩

theorem toString_ne_empty (n : Int) : (toString n).toList ≠ [] := by
  rw [Int.toString_eq_repr, Int.repr_eq_if]
  split
  · rw [Nat.toList_repr]
    exact Nat.toDigits_ne_nil
  · simp

/-- **An integer is told by its decimal digits and its sign.** -/
theorem eq_of_toString_eq {n m : Int} (h : toString n = toString m) : n = m := by
  have hdigits : ∀ {a b : Nat}, a.repr = b.repr → a = b := by
    intro a b hab
    have htoDigits : Nat.toDigits 10 a = Nat.toDigits 10 b := by
      rw [← Nat.toList_repr, hab, Nat.toList_repr]
    rw [← @Nat.ofDigitChars_ten_toDigits a, htoDigits, Nat.ofDigitChars_ten_toDigits]
  have hsign : ∀ a b : Nat, a.repr ≠ "-" ++ b.repr := by
    intro a b hab
    have hmem : '-' ∈ Nat.toDigits 10 a := by
      rw [← Nat.toList_repr, hab, String.toList_append]
      exact List.mem_append_left _ List.mem_cons_self
    exact absurd (Nat.isDigit_of_mem_toDigits (by decide) (by decide) hmem) (by decide)
  rw [Int.toString_eq_repr, Int.toString_eq_repr, Int.repr_eq_if, Int.repr_eq_if] at h
  split at h <;> split at h
  · have := hdigits h
    omega
  · exact absurd h (hsign _ _)
  · exact absurd h.symm (hsign _ _)
  · have := hdigits (String.append_right_inj "-" |>.mp h)
    omega

/-! ## Sorts of data -/

/-- What the first character of a data form tells. -/
inductive DataSort where
  | null
  | bool (b : Bool)
  | number
  | text
  | list
  | dict
deriving DecidableEq

/-- The sort of data that starts with a character. -/
def DataSort.ofChar? (c : Char) : Option DataSort :=
  if c = 'n' then some .null
  else if c = 't' then some (.bool true)
  else if c = 'f' then some (.bool false)
  else if c = '"' then some .text
  else if c = '[' then some .list
  else if c = '\x7b' then some .dict
  else if Binary64.isDataChar c then some .number
  else none

/-- What a numeral is made of says that there is a number. -/
theorem DataSort.ofChar?_of_isNumeralChar {c : Char} (h : Binary64.isNumeralChar c = true) :
    ofChar? c = some .number := by
  have hne : ∀ d, Binary64.isNumeralChar d = false → c ≠ d := by
    rintro d hd rfl
    rw [h] at hd
    cases hd
  rw [ofChar?, if_neg (hne _ rfl), if_neg (hne _ rfl), if_neg (hne _ rfl), if_neg (hne _ rfl),
    if_neg (hne _ rfl), if_neg (hne _ rfl), Binary64.isDataChar, h]
  rfl

namespace Scalar

/-- The sort of a scalar. -/
def sort : Scalar → DataSort
  | .null => .null
  | .bool b => .bool b
  | .int _ => .number
  | .float _ => .number
  | .text _ => .text
  | .unresolved _ => .text

/-- **Scalars that are equal**, where numbers are compared by their display forms, and a name that
stands for itself is its text. -/
inductive Same : Scalar → Scalar → Prop
  | payload {s t : Scalar} (h : s.SamePayload t) : Same s t
  | bool (b : Bool) : Same (.bool b) (.bool b)
  | int (n : Int) : Same (.int n) (.int n)

theorem data_of_text {s : Scalar} {content : String} (h : s.text? = some content) :
    s.data = Text.data content := by
  cases s <;> cases h <;> rfl

/-- What shows like a text is one. -/
theorem exists_text_of_sort {s : Scalar} (h : s.sort = .text) :
    ∃ content, s.text? = some content := by
  cases s with
  | text content => exact ⟨content, rfl⟩
  | unresolved name => exact ⟨name, rfl⟩
  | _ => cases h

/-- What shows like a number is an integer or a number. -/
theorem eq_number_of_sort {s : Scalar} (h : s.sort = .number) :
    (∃ n, s = .int n) ∨ ∃ x, s = .float x := by
  cases s with
  | int n => exact .inl ⟨n, rfl⟩
  | float x => exact .inr ⟨x, rfl⟩
  | _ => cases h

end Scalar

theorem Binary64.exists_cons_data (x : Binary64) :
    ∃ c cs, x.data.toList = c :: cs ∧ DataSort.ofChar? c = some .number := by
  cases x with
  | nan => exact ⟨'N', "aN".toList, by decide, rfl⟩
  | infinite negative =>
    rw [data, written, String.toList_ofList]
    cases negative
    · exact ⟨'I', "nfinity".toList, by decide, rfl⟩
    · exact ⟨'-', "Infinity".toList, by decide, rfl⟩
  | finite negative units magnitude =>
    have hnumeral := isNumeralChar_of_mem_signed negative units
    obtain ⟨d, hd, -⟩ := exists_mark_magnitudeText units
    have hmem := mem_signed hd negative
    rw [data, written, String.toList_ofList]
    cases hsigned : signed negative (magnitudeText units) with
    | nil =>
      rw [hsigned] at hmem
      cases hmem
    | cons c cs =>
      rw [hsigned] at hnumeral
      exact ⟨c, cs, rfl, DataSort.ofChar?_of_isNumeralChar (hnumeral c List.mem_cons_self)⟩

namespace Scalar

/-- **The first character of the data form of a scalar tells its sort.** -/
theorem exists_cons_data (s : Scalar) :
    ∃ c cs, s.data.toList = c :: cs ∧ DataSort.ofChar? c = some s.sort := by
  cases s with
  | null => exact ⟨'n', "ull".toList, by decide, rfl⟩
  | bool b =>
    cases b
    · exact ⟨'f', "alse".toList, by decide, rfl⟩
    · exact ⟨'t', "rue".toList, by decide, rfl⟩
  | int n =>
    show ∃ c cs, (toString n).toList = c :: cs ∧ DataSort.ofChar? c = some .number
    obtain ⟨c, cs, h⟩ := List.exists_cons_of_ne_nil (toString_ne_empty n)
    have hc := isIntegerChar_of_mem_toString n c (by rw [h]; exact List.mem_cons_self)
    refine ⟨c, cs, h, DataSort.ofChar?_of_isNumeralChar ?_⟩
    rw [Binary64.isIntegerChar, Bool.or_eq_true, decide_eq_true_eq] at hc
    obtain hc | rfl := hc
    · rw [Binary64.isNumeralChar, hc, Bool.true_or]
    · rfl
  | float x => exact x.exists_cons_data
  | text content => exact ⟨'"', _, String.toList_ofList, rfl⟩
  | unresolved name => exact ⟨'"', _, String.toList_ofList, rfl⟩

theorem isDataChar_of_mem_data {s : Scalar} (hs : s.sort = .number) :
    ∀ c ∈ s.data.toList, Binary64.isDataChar c = true := by
  obtain ⟨n, rfl⟩ | ⟨x, rfl⟩ := eq_number_of_sort hs
  · intro c hc
    have hinteger := isIntegerChar_of_mem_toString n c hc
    rw [Binary64.isIntegerChar, Bool.or_eq_true, decide_eq_true_eq] at hinteger
    obtain hdigit | rfl := hinteger
    · rw [Binary64.isDataChar, Binary64.isNumeralChar, hdigit]
      rfl
    · rfl
  · exact x.isDataChar_of_mem_data

/-- **A number and an integer are never written alike.** -/
theorem data_int_ne_float (n : Int) (x : Binary64) :
    (Scalar.int n).data ≠ (Scalar.float x).data := by
  intro h
  obtain ⟨c, hc, hmark⟩ := x.exists_not_isIntegerChar
  rw [← show toString n = x.data from h] at hc
  rw [isIntegerChar_of_mem_toString n c hc] at hmark
  cases hmark

/-- A number is told by its data form. -/
theorem same_of_data_eq {s t : Scalar} (hs : s.sort = .number) (ht : t.sort = .number)
    (h : s.data = t.data) : s.Same t := by
  obtain ⟨n, rfl⟩ | ⟨x, rfl⟩ := eq_number_of_sort hs
  · obtain ⟨m, rfl⟩ | ⟨y, rfl⟩ := eq_number_of_sort ht
    · have hnm : n = m := eq_of_toString_eq h
      exact hnm ▸ .int n
    · exact absurd h (data_int_ne_float n y)
  · obtain ⟨m, rfl⟩ | ⟨y, rfl⟩ := eq_number_of_sort ht
    · exact absurd h.symm (data_int_ne_float m x)
    · exact .payload (.float (Binary64.data_eq_iff.mp h))

end Scalar

/-! ## What may follow data -/

namespace Data

/-- The characters that end data: a separator or a closing bracket. -/
def isStop (c : Char) : Bool := [',', ']', '\x7d', ')'].contains c

/-- A text that may follow data. -/
def Stops (rest : List Char) : Prop := ∀ c ∈ rest.head?, isStop c = true

/-- A number ends where something else than its characters follows. -/
theorem not_isDataChar_of_stops {rest : List Char} (h : Stops rest) :
    ∀ c ∈ rest.head?, Binary64.isDataChar c = false := by
  have hstops : [',', ']', '\x7d', ')'].all (!Binary64.isDataChar ·) = true := by decide
  intro c hc
  have hc := List.all_eq_true.mp hstops c (List.contains_iff_mem.mp (h c hc))
  rwa [Bool.not_eq_true'] at hc

end Data

/-- **The data form of a scalar tells the scalar and its own end.** -/
theorem Scalar.same_of_data_append {s t : Scalar} {rest rest' : List Char}
    (hrest : Data.Stops rest) (hrest' : Data.Stops rest')
    (h : s.data.toList ++ rest = t.data.toList ++ rest') (hsort : s.sort = t.sort) :
    s.Same t ∧ rest = rest' := by
  cases hs : s.sort with
  | null =>
    cases s <;> cases hs
    cases t <;> cases hsort
    exact ⟨.payload .null, List.append_cancel_left h⟩
  | bool b =>
    cases s <;> cases hs
    cases t <;> cases hsort
    exact ⟨.bool b, List.append_cancel_left h⟩
  | number =>
    have ht := hsort.symm.trans hs
    -- a number goes on as long as there are characters of numbers
    obtain ⟨hdata, hrests⟩ := append_inj_of_class (isDataChar_of_mem_data hs)
      (isDataChar_of_mem_data ht) (Data.not_isDataChar_of_stops hrest)
      (Data.not_isDataChar_of_stops hrest') h
    exact ⟨same_of_data_eq hs ht (String.toList_inj.mp hdata), hrests⟩
  | text =>
    obtain ⟨content, hcontent⟩ := exists_text_of_sort hs
    obtain ⟨content', hcontent'⟩ := exists_text_of_sort (hsort.symm.trans hs)
    rw [data_of_text hcontent, data_of_text hcontent'] at h
    obtain ⟨rfl, hrests⟩ := Text.eq_of_data_append h
    exact ⟨.payload (.text hcontent hcontent'), hrests⟩
  | list => cases s <;> cases hs
  | dict => cases s <;> cases hs

/-! ## Data in sequence -/

namespace Data

variable {α : Type} {Shows : α → String → Prop} {R : α → α → Prop}

/-- **Forms that tell what they show and where they end**, as long as a stop follows. -/
def Tells (Shows : α → String → Prop) (R : α → α → Prop) (x : α) : Prop :=
  ∀ {y : α} {a b : String} {rest rest' : List Char}, Shows x a → Shows y b → Stops rest →
    Stops rest' → a.toList ++ rest = b.toList ++ rest' → R x y ∧ rest = rest'

/-- What follows the first member of a sequence that a character closes. -/
def following (close : Char) (rest : List Char) : List String → List Char
  | [] => close :: rest
  | shown => ',' :: ' ' :: ((Text.joinWith ", " shown).toList ++ close :: rest)

/-- Items that are joined are the first one and what follows it. -/
theorem joinWith_cons_append (close : Char) (rest : List Char) (a : String) (shown : List String) :
    (Text.joinWith ", " (a :: shown)).toList ++ close :: rest
      = a.toList ++ following close rest shown := by
  cases shown with
  | nil => rfl
  | cons b shown =>
    rw [Text.joinWith, String.toList_append, String.toList_append, List.append_assoc,
      List.append_assoc]
    rfl

/-- Behind an item there is a comma or what closes the list. -/
theorem stops_following {close : Char} (hclose : isStop close = true) (rest : List Char)
    (shown : List String) : Stops (following close rest shown) := by
  intro c hc
  cases shown with
  | nil =>
    obtain rfl := Option.some.inj hc
    exact hclose
  | cons b shown =>
    obtain rfl := Option.some.inj hc
    rfl

/-- **A sequence tells its members**, if their forms do and none starts as the sequence ends. -/
theorem forall₂_of_joinWith {close : Char} (hclose : isStop close = true) (hcomma : close ≠ ',')
    (hopens : ∀ x a, Shows x a → ∃ c cs, a.toList = c :: cs ∧ c ≠ close)
    {xs ys : List α} {shown shown' : List String} (hxs : List.Forall₂ Shows xs shown)
    (hys : List.Forall₂ Shows ys shown') (htells : ∀ x ∈ xs, Tells Shows R x)
    {rest rest' : List Char} (h : (Text.joinWith ", " shown).toList ++ close :: rest
      = (Text.joinWith ", " shown').toList ++ close :: rest') :
    List.Forall₂ R xs ys ∧ rest = rest' := by
  -- a sequence with members does not start with the character that closes the empty one
  have hempty : ∀ {x : α} {a : String} {more : List String} {rest rest' : List Char}, Shows x a →
      close :: rest ≠ (Text.joinWith ", " (a :: more)).toList ++ close :: rest' := by
    intro x a more rest rest' hx heq
    obtain ⟨c, cs, ha, hc⟩ := hopens x a hx
    rw [joinWith_cons_append, ha] at heq
    exact hc (List.cons.inj heq).1.symm
  induction hxs generalizing ys shown' with
  | nil =>
    cases hys with
    | nil => exact ⟨.nil, (List.cons.inj h).2⟩
    | cons hy hys => exact absurd h (hempty hy)
  | @cons x a xs shown hx hxs ih =>
    cases hys with
    | nil => exact absurd h.symm (hempty hx)
    | @cons y b ys shown' hy hys =>
      rw [joinWith_cons_append, joinWith_cons_append] at h
      obtain ⟨hxy, hfollowing⟩ := htells x List.mem_cons_self hx hy (stops_following hclose _ _)
        (stops_following hclose _ _) h
      -- behind the first members either both sequences end, or both go on
      have hrest : (Text.joinWith ", " shown).toList ++ close :: rest
          = (Text.joinWith ", " shown').toList ++ close :: rest' := by
        cases shown with
        | nil =>
          cases shown' with
          | nil => exact hfollowing
          | cons b' shown' => exact absurd (List.cons.inj hfollowing).1 hcomma
        | cons a' shown =>
          cases shown' with
          | nil => exact absurd (List.cons.inj hfollowing).1.symm hcomma
          | cons b' shown' => exact (List.cons.inj (List.cons.inj hfollowing).2).2
      obtain ⟨hmore, hrests⟩ := ih hys (fun z hz => htells z (List.mem_cons_of_mem _ hz)) hrest
      exact ⟨.cons hxy hmore, hrests⟩

end Data

/-! ## Values as data -/

namespace Value

/-- **Data**: scalars, lists of data, and dictionaries of data whose keys are texts. -/
inductive Plain : Value → Prop
  | scalar (s : Scalar) : Plain (.scalar s)
  | list {items : List Value} (h : ∀ v ∈ items, Plain v) : Plain (.list items)
  | dict {entries : List (Scalar × Value)} (hkeys : ∀ e ∈ entries, ∃ key, e.1.text? = some key)
      (h : ∀ e ∈ entries, Plain e.2) : Plain (.dict entries)

/-- **Data that are equal**: numbers by their display forms, lists by their items, and dictionaries
by their entries in order. -/
inductive Same : Value → Value → Prop
  | scalar {s t : Scalar} (h : s.Same t) : Same (.scalar s) (.scalar t)
  | list {items items' : List Value} (h : List.Forall₂ Same items items') :
      Same (.list items) (.list items')
  | dict {entries entries' : List (Scalar × Value)}
      (hkeys : entries.map (·.1.text?) = entries'.map (·.1.text?))
      (h : List.Forall₂ Same (entries.map (·.2)) (entries'.map (·.2))) :
      Same (.dict entries) (.dict entries')

/-- Whether a value has no data form of its own, whatever its parts are. -/
def isForeign : Value → Bool
  | .scalar _ => false
  | .list _ => false
  | .dict _ => false
  | _ => true

/-- **A value that holds one without a data form**, at any depth of lists and dictionaries. -/
inductive HoldsForeign : Value → Prop
  | here {v : Value} (h : v.isForeign = true) : HoldsForeign v
  | item {items : List Value} {v : Value} (hv : v ∈ items) (h : HoldsForeign v) :
      HoldsForeign (.list items)
  | entry {entries : List (Scalar × Value)} {e : Scalar × Value} (he : e ∈ entries)
      (h : HoldsForeign e.2) : HoldsForeign (.dict entries)

/-- A value and its data form. -/
def Shows (v : Value) (a : String) : Prop := v.Plain ∧ v.data = .ok a

/-- An entry of a dictionary and its data form. -/
def EntryShows (e : Scalar × Value) (a : String) : Prop :=
  ∃ key b, e.1.text? = some key ∧ Shows e.2 b ∧ a = Text.data key ++ ": " ++ b

/-- Values have data forms together exactly if each has one. -/
theorem dataAll_eq_ok_iff {items : List Value} {shown : List String} :
    dataAll items = .ok shown ↔ List.Forall₂ (fun v a => v.data = .ok a) items shown := by
  induction items generalizing shown with
  | nil =>
    rw [List.forall₂_nil_left_iff]
    exact ⟨fun h => (Except.ok.inj h).symm, fun h => h ▸ rfl⟩
  | cons v vs ih =>
    simp only [dataAll, bind_eq_ok_iff, ih, List.forall₂_cons_left_iff]
    constructor
    · rintro ⟨a, ha, rest, hrest, h⟩
      exact ⟨a, rest, ha, hrest, (Except.ok.inj h).symm⟩
    · rintro ⟨a, rest, ha, hrest, rfl⟩
      exact ⟨a, ha, rest, hrest, rfl⟩

/-- Entries have data forms exactly if the keys can be written and the values have one. -/
theorem dataEntries_eq_ok_iff {entries : List (Scalar × Value)} {shown : List String} :
    dataEntries entries = .ok shown ↔
      List.Forall₂ (fun e a => isLong e.1 = false ∧
        ∃ b, e.2.data = .ok b ∧ a = e.1.dataKey ++ ": " ++ b) entries shown := by
  induction entries generalizing shown with
  | nil =>
    rw [List.forall₂_nil_left_iff]
    exact ⟨fun h => (Except.ok.inj h).symm, fun h => h ▸ rfl⟩
  | cons e entries ih =>
    obtain ⟨k, v⟩ := e
    simp only [dataEntries, bind_eq_ok_iff, written_eq_ok_iff, ih, List.forall₂_cons_left_iff]
    constructor
    · rintro ⟨_, ⟨hk, rfl⟩, b, hb, rest, hrest, h⟩
      exact ⟨_, rest, ⟨hk, b, hb, rfl⟩, hrest, (Except.ok.inj h).symm⟩
    · rintro ⟨_, rest, ⟨hk, b, hb, rfl⟩, hrest, rfl⟩
      exact ⟨_, ⟨hk, rfl⟩, b, hb, rest, hrest, rfl⟩

theorem data_list_eq_ok_iff {items : List Value} {a : String} :
    (Value.list items).data = .ok a ↔
      ∃ shown, dataAll items = .ok shown ∧ bracketed "[" shown "]" = a := by
  rw [data, map_eq_ok_iff]

theorem data_dict_eq_ok_iff {entries : List (Scalar × Value)} {a : String} :
    (Value.dict entries).data = .ok a ↔
      ∃ shown, dataEntries entries = .ok shown ∧ bracketed "\x7b" shown "\x7d" = a := by
  rw [data, map_eq_ok_iff]

/-- **What holds a value without a data form has none itself.** -/
theorem HoldsForeign.data_ne_ok {v : Value} (h : v.HoldsForeign) (a : String) : v.data ≠ .ok a := by
  induction h generalizing a with
  | @here v h =>
    cases v with
    | scalar s => cases h
    | list items => cases h
    | dict entries => cases h
    | _ => simp [data]
  | @item items v hv h ih =>
    intro hdata
    obtain ⟨shown, hshown, -⟩ := data_list_eq_ok_iff.mp hdata
    obtain ⟨b, hb⟩ := exists_forall₂_iff.mp ⟨shown, dataAll_eq_ok_iff.mp hshown⟩ v hv
    exact ih b hb
  | @entry entries e he h ih =>
    intro hdata
    obtain ⟨shown, hshown, -⟩ := data_dict_eq_ok_iff.mp hdata
    obtain ⟨a, -, b, hb, -⟩ :=
      exists_forall₂_iff.mp ⟨shown, dataEntries_eq_ok_iff.mp hshown⟩ e he
    exact ih b hb

/-- **A value that holds what is no data is shown as a whole by its display form.** -/
theorem HoldsForeign.render_eq {v : Value} (h : v.HoldsForeign) (methodsOf : Nat → List Scalar) :
    v.render methodsOf = v.display methodsOf := by
  unfold render
  cases hdata : v.data with
  | ok a => exact absurd hdata (h.data_ne_ok a)
  | error kind => rfl

/-- **Data that can be written has a data form.** -/
theorem Plain.exists_shows {v : Value} (h : v.Plain) (hwritable : v.isWritable = true) :
    ∃ a, v.Shows a := by
  suffices hdata : ∃ a, v.data = .ok a by
    obtain ⟨a, ha⟩ := hdata
    exact ⟨a, h, ha⟩
  induction h with
  | scalar s =>
    rw [isWritable, Bool.not_eq_true'] at hwritable
    exact exists_written_iff.mpr hwritable
  | list h ih =>
    rw [isWritable, isWritableAll_iff] at hwritable
    obtain ⟨shown, hshown⟩ := exists_forall₂_iff.mpr fun v hv => ih v hv (hwritable v hv)
    exact ⟨_, data_list_eq_ok_iff.mpr ⟨shown, dataAll_eq_ok_iff.mpr hshown, rfl⟩⟩
  | @dict entries hkeys h ih =>
    rw [isWritable, isWritableEntries_iff] at hwritable
    have hentries : ∀ e ∈ entries, ∃ a, isLong e.1 = false ∧
        ∃ b, e.2.data = .ok b ∧ a = e.1.dataKey ++ ": " ++ b := by
      intro e he
      obtain ⟨b, hb⟩ := ih e he (hwritable e he).2
      exact ⟨_, (hwritable e he).1, b, hb, rfl⟩
    obtain ⟨shown, hshown⟩ := exists_forall₂_iff.mpr hentries
    exact ⟨_, data_dict_eq_ok_iff.mpr ⟨shown, dataEntries_eq_ok_iff.mpr hshown, rfl⟩⟩

/-- A trace shows data by its data form. -/
theorem Plain.shows_of_render {v : Value} (h : v.Plain) {methodsOf : Nat → List Scalar}
    (hnames : ShortNames methodsOf) {a : String} (hrender : v.render methodsOf = .ok a) :
    v.Shows a := by
  obtain ⟨b, hb⟩ := h.exists_shows ((exists_render_iff hnames v).mp ⟨a, hrender⟩)
  rw [render, hb.2] at hrender
  exact Except.ok.inj hrender ▸ hb

theorem toList_bracketed_append (shown : List String) (rest : List Char) :
    (bracketed "[" shown "]").toList ++ rest
        = '[' :: ((Text.joinWith ", " shown).toList ++ ']' :: rest) ∧
      (bracketed "\x7b" shown "\x7d").toList ++ rest
        = '\x7b' :: ((Text.joinWith ", " shown).toList ++ '\x7d' :: rest) := by
  simp [bracketed]

/-- The sort of data. -/
def sort : Value → DataSort
  | .scalar s => s.sort
  | .list _ => .list
  | .dict _ => .dict
  | _ => .null

/-- **The first character of a data form tells the sort of the data.** -/
theorem Shows.exists_cons {v : Value} {a : String} (h : v.Shows a) :
    ∃ c cs, a.toList = c :: cs ∧ DataSort.ofChar? c = some v.sort := by
  obtain ⟨hplain, hdata⟩ := h
  cases hplain with
  | scalar s =>
    obtain ⟨-, rfl⟩ := written_eq_ok_iff.mp hdata
    exact s.exists_cons_data
  | list h =>
    obtain ⟨shown, -, rfl⟩ := data_list_eq_ok_iff.mp hdata
    exact ⟨'[', _, by rw [← List.append_nil (bracketed _ _ _).toList,
      (toList_bracketed_append shown []).1], rfl⟩
  | dict hkeys h =>
    obtain ⟨shown, -, rfl⟩ := data_dict_eq_ok_iff.mp hdata
    exact ⟨'\x7b', _, by rw [← List.append_nil (bracketed _ _ _).toList,
      (toList_bracketed_append shown []).2], rfl⟩

/-- **The first character of a data form tells what sort of value it is of.** -/
theorem Shows.sort_eq {v w : Value} {a b : String} {rest rest' : List Char} (hv : v.Shows a)
    (hw : w.Shows b) (h : a.toList ++ rest = b.toList ++ rest') : v.sort = w.sort := by
  obtain ⟨c, cs, ha, hc⟩ := hv.exists_cons
  obtain ⟨d, ds, hb, hd⟩ := hw.exists_cons
  rw [ha, hb] at h
  obtain rfl := (List.cons.inj h).1
  exact Option.some.inj (hc.symm.trans hd)

/-- No data starts with a character that closes a sequence. -/
theorem Shows.opens {close : Char} (hclose : DataSort.ofChar? close = none) {v : Value} {a : String}
    (h : v.Shows a) : ∃ c cs, a.toList = c :: cs ∧ c ≠ close := by
  obtain ⟨c, cs, ha, hc⟩ := h.exists_cons
  refine ⟨c, cs, ha, ?_⟩
  rintro rfl
  rw [hclose] at hc
  cases hc

theorem eq_list_of_sort {v : Value} (hv : v.Plain) (h : v.sort = .list) :
    ∃ items, v = .list items := by
  cases hv with
  | scalar s => cases s <;> cases h
  | list h => exact ⟨_, rfl⟩
  | dict hkeys h' => cases h

theorem eq_dict_of_sort {v : Value} (hv : v.Plain) (h : v.sort = .dict) :
    ∃ entries, v = .dict entries := by
  cases hv with
  | scalar s => cases s <;> cases h
  | list h' => cases h
  | dict hkeys h' => exact ⟨_, rfl⟩

theorem eq_scalar_of_sort {v : Value} {s : Scalar} (hv : v.Plain) (h : v.sort = s.sort) :
    ∃ t, v = .scalar t := by
  cases hv with
  | scalar t => exact ⟨t, rfl⟩
  | list h' => cases s <;> cases h
  | dict hkeys h' => cases s <;> cases h

/-- A list shows its items, in brackets. -/
theorem Shows.list {items : List Value} {a : String} (h : (Value.list items).Shows a) :
    ∃ shown, List.Forall₂ Shows items shown ∧ bracketed "[" shown "]" = a := by
  obtain ⟨hplain, hdata⟩ := h
  obtain ⟨shown, hshown, ha⟩ := data_list_eq_ok_iff.mp hdata
  cases hplain with
  | list hitems =>
    exact ⟨shown, (List.forall₂_and_left _ _).mpr ⟨hitems, dataAll_eq_ok_iff.mp hshown⟩, ha⟩

/-- A dictionary shows its entries, in braces. -/
theorem Shows.dict {entries : List (Scalar × Value)} {a : String}
    (h : (Value.dict entries).Shows a) :
    ∃ shown, List.Forall₂ EntryShows entries shown ∧ bracketed "\x7b" shown "\x7d" = a := by
  obtain ⟨hplain, hdata⟩ := h
  obtain ⟨shown, hshown, ha⟩ := data_dict_eq_ok_iff.mp hdata
  cases hplain with
  | dict hkeys hentries =>
    refine ⟨shown, ?_, ha⟩
    have hall := (List.forall₂_and_left _ _).mpr
      ⟨fun e he => And.intro (hkeys e he) (hentries e he), dataEntries_eq_ok_iff.mp hshown⟩
    refine hall.imp ?_
    rintro e a ⟨⟨⟨key, hkey⟩, hplain⟩, -, b, hb, rfl⟩
    refine ⟨key, b, hkey, ⟨hplain, hb⟩, ?_⟩
    rw [Scalar.dataKey, hkey]
    rfl

/-- Entries that are equal. -/
def SameEntry (e f : Scalar × Value) : Prop := e.1.text? = f.1.text? ∧ Same e.2 f.2

/-- An entry is told by its key and by the data behind it. -/
theorem tells_entry {e : Scalar × Value} (h : Data.Tells Shows Same e.2) :
    Data.Tells EntryShows SameEntry e := by
  rintro f a b rest rest' ⟨key, v, hkey, hv, rfl⟩ ⟨key', w, hkey', hw, rfl⟩ hrest hrest' heq
  simp only [String.toList_append, List.append_assoc] at heq
  obtain ⟨rfl, hvalues⟩ := Text.eq_of_data_append heq
  obtain ⟨hsame, hrests⟩ := h hv hw hrest hrest' (List.append_cancel_left hvalues)
  exact ⟨⟨hkey.trans hkey'.symm, hsame⟩, hrests⟩

/-- An entry starts with something else than what closes a dictionary. -/
theorem EntryShows.opens {e : Scalar × Value} {a : String} (h : EntryShows e a) :
    ∃ c cs, a.toList = c :: cs ∧ c ≠ '\x7d' := by
  obtain ⟨key, b, -, -, rfl⟩ := h
  exact ⟨'"', _, by rw [Text.data]; simp; rfl, by decide⟩

theorem Same.of_entries {entries entries' : List (Scalar × Value)}
    (h : List.Forall₂ SameEntry entries entries') : Same (.dict entries) (.dict entries') := by
  refine .dict ?_ ?_
  · rw [← List.forall₂_eq_eq_eq, List.forall₂_map_left_iff, List.forall₂_map_right_iff]
    exact h.imp fun e f hef => hef.1
  · rw [List.forall₂_map_left_iff, List.forall₂_map_right_iff]
    exact h.imp fun e f hef => hef.2

/-- **The data form of a value tells the value and its own end.** -/
theorem Plain.tells {v : Value} (hplain : v.Plain) : Data.Tells Shows Same v := by
  -- the first characters are equal, so the other value is of the same sort in every case
  induction hplain with
  | scalar s =>
    intro w a b rest rest' hv hw hrest hrest' h
    have hsort := hv.sort_eq hw h
    obtain ⟨t, rfl⟩ := eq_scalar_of_sort hw.1 hsort.symm
    obtain ⟨-, rfl⟩ := written_eq_ok_iff.mp hv.2
    obtain ⟨-, rfl⟩ := written_eq_ok_iff.mp hw.2
    obtain ⟨hsame, hrests⟩ := Scalar.same_of_data_append hrest hrest' h hsort
    exact ⟨.scalar hsame, hrests⟩
  | list hitems ih =>
    intro w a b rest rest' hv hw hrest hrest' h
    obtain ⟨items', rfl⟩ := eq_list_of_sort hw.1 (hv.sort_eq hw h).symm
    obtain ⟨shown, hshown, rfl⟩ := hv.list
    obtain ⟨shown', hshown', rfl⟩ := hw.list
    rw [(toList_bracketed_append _ _).1, (toList_bracketed_append _ _).1] at h
    obtain ⟨hsame, hrests⟩ := Data.forall₂_of_joinWith rfl (by decide)
      (fun x a hx => hx.opens rfl) hshown hshown' ih (List.cons.inj h).2
    exact ⟨.list hsame, hrests⟩
  | dict hkeys hentries ih =>
    intro w a b rest rest' hv hw hrest hrest' h
    obtain ⟨entries', rfl⟩ := eq_dict_of_sort hw.1 (hv.sort_eq hw h).symm
    obtain ⟨shown, hshown, rfl⟩ := hv.dict
    obtain ⟨shown', hshown', rfl⟩ := hw.dict
    rw [(toList_bracketed_append _ _).2, (toList_bracketed_append _ _).2] at h
    obtain ⟨hsame, hrests⟩ := Data.forall₂_of_joinWith rfl (by decide)
      (fun e a he => he.opens) hshown hshown' (fun e he => tells_entry (ih e he))
      (List.cons.inj h).2
    exact ⟨.of_entries hsame, hrests⟩

end Value

end CallScript
