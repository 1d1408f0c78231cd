/-!
# Ranges of code points

A property of characters is given as a list of closed ranges of code points. Membership is a plain
search, so that a question about one character is settled by evaluation.
-/

namespace CallScript.Text

/-- Whether a character lies in one of the closed ranges. -/
def inRanges (ranges : List (Nat × Nat)) (c : Char) : Bool :=
  ranges.any fun r => r.1 ≤ c.toNat && c.toNat ≤ r.2

end CallScript.Text
