import CallScript.Binary64.Written
import CallScript.Table
import CallScript.Text.Quoted

/-!
# Scalars

Values without parts, which are also the keys of dictionaries: nothing, a truth value, an integer,
a number, a text, or an identifier that stands for its own name because nothing is bound to it. The
last behaves as a text in every way, except that its display form tells it apart.

Each scalar has a *display* form, a *plain* form that shows a text without quotes, and a *data*
form.
-/

namespace CallScript

/-- A value without parts. -/
inductive Scalar where
  | null
  | bool (b : Bool)
  | int (n : Int)
  | float (x : Binary64)
  | text (s : String)
  /-- An identifier that stands for its own name. -/
  | unresolved (name : String)
deriving DecidableEq

namespace Scalar

instance : Inhabited Scalar := ⟨null⟩

/-- A scalar for display, texts in quotes. -/
def display : Scalar → String
  | null => "None"
  | bool b => if b then "True" else "False"
  | int n => toString n
  | float x => x.display
  | text s => Text.display s
  | unresolved name => "UnresolvedIdentifier(" ++ Text.display name ++ ")"

/-- The text of a scalar that is one. -/
def text? : Scalar → Option String
  | text s => some s
  | unresolved name => some name
  | _ => none

/-- A scalar as part of a sentence: a text stands for itself. -/
def plain (s : Scalar) : String := s.text?.getD s.display

/-- A scalar as data. -/
def data : Scalar → String
  | null => "null"
  | bool b => if b then "true" else "false"
  | int n => toString n
  | float x => x.data
  | text s => Text.data s
  | unresolved name => Text.data name

/-- A scalar as the key of an entry of data, where every key is a text. -/
def dataKey (s : Scalar) : String := Text.data (s.text?.getD s.data)

/-- Nothing, zeros, falsehood and the empty text count as false. -/
def truthy : Scalar → Bool
  | null => false
  | bool b => b
  | int n => n != 0
  | float x => !x.isZero
  | text s => s != ""
  | unresolved name => name != ""

/-- The name of a scalar's kind. -/
def kindName : Scalar → String
  | null => "NoneType"
  | bool _ => "bool"
  | int _ => "int"
  | float _ => "float"
  | text _ => "str"
  | unresolved _ => "UnresolvedIdentifier"

/-! ## Scalars as keys -/

/-- What a scalar is as a key. -/
inductive KeyForm where
  | null
  | int (n : Int)
  | float (x : Binary64)
  | text (s : String)
deriving DecidableEq

/-- Numbers of any kind are one key when they have one value, and truth values count as zero and
one. The value that is not a number is the same as no key, not even itself. -/
def keyForm? : Scalar → Option KeyForm
  | null => some .null
  | bool b => some (.int (if b then 1 else 0))
  | int n => some (.int n)
  | float .nan => none
  | float x =>
    match x.toInt? with
    | some n => some (.int n)
    | none => some (.float x)
  | text s => some (.text s)
  | unresolved name => some (.text name)

/-- Whether two scalars are one key. -/
def sameKey (a b : Scalar) : Bool :=
  a.keyForm?.isSome && a.keyForm? = b.keyForm?

instance : Key Scalar where
  same := sameKey
  same_comm a b := by
    unfold sameKey
    rw [Bool.eq_iff_iff]
    simp only [Bool.and_eq_true, decide_eq_true_eq]
    exact ⟨fun ⟨h, e⟩ => ⟨e ▸ h, e.symm⟩, fun ⟨h, e⟩ => ⟨e ▸ h, e.symm⟩⟩
  same_trans h k := by
    unfold sameKey at *
    simp only [Bool.and_eq_true, decide_eq_true_eq] at *
    exact ⟨h.1, h.2.trans k.2⟩

end Scalar

end CallScript
