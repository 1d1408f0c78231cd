import CallScript.Text.Lines
import CallScript.Text.Quoted

/-!
# Days and times

A document may hold a day, a time of day, or both, the latter with or without an offset from the
standard time. Such a moment is not data for a script: it only has two forms as text. The *plain*
form writes the parts with leading zeros; the *display* form names the parts one by one.
-/

namespace CallScript

/-- Whether a year has a leap day. -/
def isLeapYear (year : Nat) : Bool :=
  year % 4 = 0 && (year % 100 ≠ 0 || year % 400 = 0)

/-- How many days a month has. -/
def daysInMonth (year month : Nat) : Nat :=
  if month = 2 then if isLeapYear year then 29 else 28
  else if [4, 6, 9, 11].contains month then 30
  else 31

/-- A day of the calendar. -/
structure Day where
  year : Nat
  month : Nat
  day : Nat
  isYear : 1 ≤ year ∧ year ≤ 9999
  isMonth : 1 ≤ month ∧ month ≤ 12
  isDay : 1 ≤ day ∧ day ≤ daysInMonth year month
deriving DecidableEq

/-- A time of day. -/
structure Clock where
  hour : Fin 24
  minute : Fin 60
  second : Fin 60
  microsecond : Fin 1000000
deriving DecidableEq

/-- A day, a time of day or both, the latter with or without an offset in minutes. -/
inductive Moment where
  | day (d : Day)
  | clock (t : Clock)
  | both (d : Day) (t : Clock) (offset : Option Int)
deriving DecidableEq

/-- The day of three numbers, if the calendar has it. -/
def Day.ofParts? (year month day : Nat) : Option Day :=
  if h : (1 ≤ year ∧ year ≤ 9999) ∧ (1 ≤ month ∧ month ≤ 12) ∧
      (1 ≤ day ∧ day ≤ daysInMonth year month) then
    some ⟨year, month, day, h.1, h.2.1, h.2.2⟩
  else none

namespace Moment

/-- A number with leading zeros. -/
def padded (width n : Nat) : String := String.ofList (Text.paddedDigits 10 width n)

/-- A day with leading zeros. -/
def dayText (d : Day) : String :=
  padded 4 d.year ++ "-" ++ padded 2 d.month ++ "-" ++ padded 2 d.day

/-- A time of day with leading zeros; a fraction of a second only if there is one. -/
def clockText (t : Clock) : String :=
  padded 2 t.hour ++ ":" ++ padded 2 t.minute ++ ":" ++ padded 2 t.second
    ++ (if t.microsecond.val = 0 then "" else "." ++ padded 6 t.microsecond)

/-- An offset as hours and minutes. -/
def offsetText (offset : Int) : String :=
  (if offset < 0 then "-" else "+") ++ padded 2 (offset.natAbs / 60) ++ ":"
    ++ padded 2 (offset.natAbs % 60)

/-- A moment as part of a sentence. -/
def plain : Moment → String
  | day d => dayText d
  | clock t => clockText t
  | both d t offset => dayText d ++ " " ++ clockText t ++ (offset.map offsetText).getD ""

/-- The parts of a day. -/
def dayParts (d : Day) : List Nat := [d.year, d.month, d.day]

/-- The parts of a time of day; seconds and their fraction only if they are there. -/
def clockParts (t : Clock) : List Nat :=
  [t.hour.val, t.minute.val] ++
    (if t.microsecond.val ≠ 0 then [t.second.val, t.microsecond.val]
    else if t.second.val ≠ 0 then [t.second.val] else [])

/-- An offset for display. One before the standard time counts from the day before. -/
def displayOffset (offset : Int) : String :=
  let seconds := "seconds=" ++ toString ((60 * offset) % 86400)
  if offset = 0 then "datetime.timezone.utc"
  else
    "datetime.timezone(datetime.timedelta(" ++ (if offset < 0 then "days=-1, " else "") ++ seconds
      ++ "))"

/-- A kind with numbers for its parts. -/
def displayParts (kind : String) (parts : List Nat) (more : List String) : String :=
  "datetime." ++ kind ++ "(" ++ Text.joinWith ", " (parts.map toString ++ more) ++ ")"

/-- The name of a moment's kind. -/
def kindName : Moment → String
  | day _ => "date"
  | clock _ => "time"
  | both _ _ _ => "datetime"

/-- A moment for display. -/
def display : Moment → String
  | day d => displayParts (day d).kindName (dayParts d) []
  | clock t => displayParts (clock t).kindName (clockParts t) []
  | both d t offset =>
    displayParts (both d t offset).kindName (dayParts d ++ clockParts t)
      (offset.map ("tzinfo=" ++ displayOffset ·)).toList

end Moment

end CallScript
