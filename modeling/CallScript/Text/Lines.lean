import CallScript.Text.Ranges

/-!
# Lines

A report of one line is cut at the first line break. The breaks are the line feed, the carriage
return, the vertical tab, the form feed, the separators `U+001C` to `U+001E`, the next-line
control, and the line and paragraph separators.
-/

namespace CallScript.Text

/-- The characters that end a line. -/
def isLineBreak (c : Char) : Bool :=
  inRanges [(0xa, 0xd), (0x1c, 0x1e), (0x85, 0x85), (0x2028, 0x2029)] c

/-- The text up to its first line break. -/
def firstLine (s : String) : String :=
  String.ofList (s.toList.takeWhile (!isLineBreak ·))

/-- Cuts a text at every occurrence of a character; there is always one piece more than
occurrences. -/
def splitAt (sep : Char) : List Char → List (List Char)
  | [] => [[]]
  | c :: cs =>
    match splitAt sep cs with
    | [] => [[c]]
    | piece :: pieces => if c = sep then [] :: piece :: pieces else (c :: piece) :: pieces

/-- Puts a text between consecutive members. -/
def joinWith (sep : String) : List String → String
  | [] => ""
  | [s] => s
  | s :: t :: rest => s ++ sep ++ joinWith sep (t :: rest)

end CallScript.Text
