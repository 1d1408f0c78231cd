import CallScript.Binary64.Decimal

/-!
# Numbers as text

A number is written with the digits of its shortest decimal. Between `10 ^ -4` and `10 ^ 16` the
digits stand around a decimal point, with at least one on each side; beyond, one digit stands
before the point and a signed exponent of at least two digits follows. The special values have two
sets of names, one for display and one for data.
-/

namespace CallScript.Binary64

/-- The digits of a decimal without trailing zeros, and where the point stands: the value is
`0.digits * 10 ^ point`. -/
def significant (d : Decimal) : List Char × Int :=
  let digits := Nat.toDigits 10 d.digits
  ((digits.reverse.dropWhile (· = '0')).reverse, d.exponent + digits.length)

/-- Digits around a decimal point. -/
def positional (digits : List Char) (point : Int) : List Char :=
  if point ≤ 0 then '0' :: '.' :: (List.replicate (-point).toNat '0' ++ digits)
  else
    let whole := point.toNat
    if digits.length ≤ whole then
      digits ++ List.replicate (whole - digits.length) '0' ++ ['.', '0']
    else digits.take whole ++ '.' :: digits.drop whole

/-- One digit before the point, the others after it, and an exponent. -/
def scientific (digits : List Char) (point : Int) : List Char :=
  let exponent := point - 1
  let size := Nat.toDigits 10 exponent.natAbs
  let head := digits.take 1 ++ (if 1 < digits.length then '.' :: digits.drop 1 else [])
  head ++ 'e' :: (if exponent < 0 then '-' else '+') ::
    (List.replicate (2 - size.length) '0' ++ size)

/-- The text of a count of units. -/
def magnitudeText (units : Nat) : List Char :=
  if units = 0 then ['0', '.', '0']
  else
    let (digits, point) := significant (Decimal.shortest units)
    if -4 < point && point ≤ 16 then positional digits point else scientific digits point

/-- A text with a minus sign in front of it or not. -/
def signed (negative : Bool) (text : List Char) : List Char :=
  if negative then '-' :: text else text

/-- The text of a number, where infinity and the value that is not a number go by the given
names. -/
def written (infinity notANumber : String) : Binary64 → String
  | .nan => notANumber
  | .infinite negative => String.ofList (signed negative infinity.toList)
  | .finite negative units _ => String.ofList (signed negative (magnitudeText units))

/-- A number for display. -/
def display : Binary64 → String := written "inf" "nan"

/-- A number as data. -/
def data : Binary64 → String := written "Infinity" "NaN"

end CallScript.Binary64
