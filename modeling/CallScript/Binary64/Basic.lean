/-!
# Binary floating-point numbers

The numbers of a script are the 64-bit binary floating-point numbers. A finite one is a whole
number of *units*, a unit being `2 ^ -1074`, the smallest positive value; it is representable when
it has at most 53 significant bits and stays below `2 ^ 1024`. Counting in units leaves no exponent
to keep in step: order, equality and rounding are questions about naturals, and each number has
exactly one form.
-/

namespace CallScript

namespace Binary64

/-- A unit is two to the power of minus this. -/
def unitExponent : Nat := 1074

/-- How many units make one. -/
def unitsPerOne : Nat := Nat.pow 2 unitExponent

/-- The weight of the last of 53 significant bits, in units. -/
def lastPlace (units : Nat) : Nat := Nat.pow 2 (units.log2 - 52)

/-- The units in `2 ^ 1024`, which every finite magnitude stays below. -/
def unitsBound : Nat := Nat.pow 2 (1024 + unitExponent)

/-- A count of units that is the magnitude of a finite number. -/
def IsMagnitude (units : Nat) : Prop :=
  units < unitsBound ∧ units % lastPlace units = 0

instance (units : Nat) : Decidable (IsMagnitude units) :=
  inferInstanceAs (Decidable (_ ∧ _))

theorem isMagnitude_zero : IsMagnitude 0 := by
  refine ⟨?_, Nat.zero_mod _⟩
  unfold unitsBound
  generalize 1024 + unitExponent = n
  exact Nat.two_pow_pos n

end Binary64

/-- A 64-bit binary floating-point number. Zero keeps its sign; there is one value that is not a
number. -/
inductive Binary64 where
  | nan
  | infinite (negative : Bool)
  | finite (negative : Bool) (units : Nat) (magnitude : Binary64.IsMagnitude units)
deriving DecidableEq

namespace Binary64

/-- Zero of either sign. -/
def zero (negative : Bool) : Binary64 :=
  .finite negative 0 isMagnitude_zero

instance : Inhabited Binary64 := ⟨zero false⟩

/-- The number with the given count of units; a count beyond the largest magnitude is infinite. -/
def ofUnits (negative : Bool) (units : Nat) : Binary64 :=
  if h : IsMagnitude units then .finite negative units h else .infinite negative

/-- The quotient rounded to the nearest natural, a half to the even neighbour. -/
def roundDiv (num den : Nat) : Nat :=
  let quotient := num / den
  let twice := 2 * (num % den)
  if twice < den then quotient
  else if den < twice then quotient + 1
  else quotient + quotient % 2

/-- **Rounding.** The number nearest to `num / den`; of two equally near, the one whose last
significant bit is zero. A quotient that rounds to `2 ^ 1024` or more is infinite. -/
def ofRatio (negative : Bool) (num den : Nat) : Binary64 :=
  let place := lastPlace (num * unitsPerOne / den)
  ofUnits negative (roundDiv (num * unitsPerOne) (den * place) * place)

/-- The number nearest to an integer, when that number is finite. -/
def ofInt? (n : Int) : Option Binary64 :=
  match ofRatio (n < 0) n.natAbs 1 with
  | .infinite _ => none
  | x => some x

/-- One for true and zero for false. -/
def ofBool (b : Bool) : Binary64 :=
  if b then ofRatio false 1 1 else zero false

/-- The integer that a number equals, if there is one. -/
def toInt? : Binary64 → Option Int
  | .finite negative units _ =>
    if units % unitsPerOne = 0 then
      let n : Int := (units / unitsPerOne : Nat)
      some (if negative then -n else n)
    else none
  | _ => none

/-- Greater than zero; false of the value that is not a number. -/
def isPositive : Binary64 → Bool
  | .nan => false
  | .infinite negative => !negative
  | .finite negative units _ => !negative && units != 0

/-- Less than or equal to zero; false of the value that is not a number. -/
def isNonPositive : Binary64 → Bool
  | .nan => false
  | .infinite negative => negative
  | .finite negative units _ => negative || units == 0

/-- Whether a number is a zero. -/
def isZero : Binary64 → Bool
  | .finite _ units _ => units == 0
  | _ => false

end Binary64

end CallScript
