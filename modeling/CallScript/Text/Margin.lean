import CallScript.Text.Blank
import CallScript.Text.Lines

/-!
# The margin of a description

A description written inside a program carries the indentation of its surroundings. Cleaning it
expands tabs, removes from all lines but the first their common margin, strips the first line on
the left, and drops empty lines at both ends.
-/

namespace CallScript.Text

/-- Replaces each tab by blanks up to the next multiple of eight, counting from the start of the
line. -/
def expandTabsFrom (column : Nat) : List Char → List Char
  | [] => []
  | c :: cs =>
    if c = '\t' then
      let width := 8 - column % 8
      List.replicate width ' ' ++ expandTabsFrom (column + width) cs
    else if c = '\n' || c = '\r' then c :: expandTabsFrom 0 cs
    else c :: expandTabsFrom (column + 1) cs

/-- The indentation of a line that is not blank. -/
def indentation? (line : List Char) : Option Nat :=
  if line.all isBlank then none else some (line.takeWhile isBlank).length

/-- The smallest indentation among the lines that are not blank. -/
def margin? (lines : List (List Char)) : Option Nat :=
  (lines.filterMap indentation?).min?

/-- Removes the common margin of the lines. -/
def removeMargin (lines : List (List Char)) : List (List Char) :=
  match margin? lines with
  | some margin => lines.map (·.drop margin)
  | none => lines

/-- Drops empty lines at both ends. -/
def dropEmptyEnds (lines : List (List Char)) : List (List Char) :=
  ((lines.reverse.dropWhile List.isEmpty).reverse).dropWhile List.isEmpty

/-- A description without the indentation of its surroundings. -/
def cleanDescription (s : String) : String :=
  let lines :=
    match splitAt '\n' (expandTabsFrom 0 s.toList) with
    | [] => []
    | first :: rest => first.dropWhile isBlank :: removeMargin rest
  joinWith "\n" ((dropEmptyEnds lines).map String.ofList)

end CallScript.Text
