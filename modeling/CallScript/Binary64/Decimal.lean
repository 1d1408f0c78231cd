import CallScript.Binary64.Basic

/-!
# Decimals

A decimal is an integer of digits scaled by a power of ten. Every decimal has a nearest number;
conversely every finite number has a *shortest* decimal, the one of fewest digits that reads back
to it. The shortest decimal is found by trying one digit, two digits, and so on: for each count the
two neighbours of the value on the grid of that count, the nearer first, and the first that reads
back is taken. Reading back is the test itself, so that what is written is always read as what was
meant; the exact expansion stands at the end of the search for completeness.
-/

namespace CallScript

/-- The value `digits * 10 ^ exponent`. -/
structure Decimal where
  digits : Nat
  exponent : Int
deriving DecidableEq

namespace Decimal

/-- How many decimal digits a natural is written with. -/
def digitCount (n : Nat) : Nat := (Nat.toDigits 10 n).length

/-- The number nearest to a decimal. A decimal of at least `10 ^ 309` is infinite and one below
`10 ^ -325` is zero, which is settled before any large power is formed. -/
def toBinary64 (negative : Bool) (d : Decimal) : Binary64 :=
  let point := d.exponent + digitCount d.digits
  if d.digits = 0 || point < -325 then Binary64.zero negative
  else if 309 < point then .infinite negative
  else if 0 ≤ d.exponent then Binary64.ofRatio negative (d.digits * Nat.pow 10 d.exponent.toNat) 1
  else Binary64.ofRatio negative d.digits (Nat.pow 10 (-d.exponent).toNat)

/-- The power of ten just above a positive count of units: the least `p` for which the value is
below `10 ^ p`. -/
def pointOf (units : Nat) : Int :=
  (digitCount (units * Nat.pow 10 400 / Binary64.unitsPerOne) : Int) - 400

/-- The value of a count of units as a fraction whose unit is `10 ^ exponent`. -/
def onGrid (units : Nat) (exponent : Int) : Nat × Nat :=
  if 0 ≤ exponent then (units, Binary64.unitsPerOne * Nat.pow 10 exponent.toNat)
  else (units * Nat.pow 10 (-exponent).toNat, Binary64.unitsPerOne)

/-- The two decimals next to a count of units on the grid of `count` digits, the nearer first. Of
two that are equally near, the one with the even last digit comes first. -/
def neighbours (units count : Nat) : List Decimal :=
  let exponent := pointOf units - count
  let (num, den) := onGrid units exponent
  let below : Decimal := ⟨num / den, exponent⟩
  let above : Decimal := ⟨num / den + 1, exponent⟩
  if 2 * (num % den) < den || (2 * (num % den) = den && num / den % 2 = 0) then [below, above]
  else [above, below]

/-- The value of a count of units, digit for digit. -/
def exact (units : Nat) : Decimal :=
  ⟨units * Nat.pow 5 Binary64.unitExponent, -Binary64.unitExponent⟩

/-- **The shortest decimal** of a positive count of units: of fewest digits among those that read
back, and of those the nearest, an exact tie going to the even last digit. -/
def shortest (units : Nat) : Decimal :=
  let reads (d : Decimal) : Bool := d.toBinary64 false = Binary64.ofUnits false units
  ((List.range 17).findSome? fun n => (neighbours units (n + 1)).find? reads).getD (exact units)

end Decimal

end CallScript
