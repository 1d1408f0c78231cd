import CallScript.Text.Ranges

/-!
# Blank characters

Blanks separate tokens and pad words. They are the white space of the character standard together
with the four information separators `U+001C` to `U+001F`.
-/

namespace CallScript.Text

/-- The information separators: blanks of a script that are not white space. -/
def separatorRanges : List (Nat × Nat) :=
  [(0x1c, 0x1f)]

/-- White space of the character standard. -/
def whiteSpaceRanges : List (Nat × Nat) :=
  [(0x9, 0xd), (0x20, 0x20), (0x85, 0x85), (0xa0, 0xa0), (0x1680, 0x1680), (0x2000, 0x200a),
   (0x2028, 0x2029), (0x202f, 0x202f), (0x205f, 0x205f), (0x3000, 0x3000)]

/-- White space of the character standard. -/
def isWhiteSpace (c : Char) : Bool :=
  inRanges whiteSpaceRanges c

/-- White space or an information separator. -/
def isBlank (c : Char) : Bool :=
  isWhiteSpace c || inRanges separatorRanges c

/-- Drops the characters of a class from both ends. -/
def trimBy (drop : Char → Bool) (cs : List Char) : List Char :=
  ((cs.dropWhile drop).reverse.dropWhile drop).reverse

end CallScript.Text
