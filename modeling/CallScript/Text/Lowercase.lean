import CallScript.Text.Casing

/-!
# Lower case of a text

Lowering is letter by letter but for two letters. The dotted capital `İ` becomes two characters,
and a capital sigma becomes the final `ς` at the end of a word: when a letter with case stands
before it and none after it, looking past marks and punctuation on both sides.
-/

namespace CallScript.Text

/-- The lower case of a letter that has one of a single character; every other character is its
own. -/
def lowerChar (c : Char) : Char :=
  match caseRuns.find? (·.covers c.toNat) with
  | some run => Char.ofNat (c.toNat + run.shift).toNat
  | none => c

/-- Whether the nearest character that matters for case, looking along the list, has case. -/
def meetsCased (cs : List Char) : Bool :=
  match cs.dropWhile (inRanges caseIgnorableRanges) with
  | c :: _ => inRanges casedRanges c
  | [] => false

/-- Lowers the text `after`, where `before` is what precedes it, nearest character first. -/
def lowerFrom (before : List Char) : List Char → List Char
  | [] => []
  | c :: after =>
    let lowered :=
      if c = 'Σ' then
        [if meetsCased before && !meetsCased after then 'ς' else 'σ']
      else if c = 'İ' then ['i', Char.ofNat 0x307]
      else [lowerChar c]
    lowered ++ lowerFrom (c :: before) after

/-- The lower case of a text. -/
def lower (s : String) : String :=
  String.ofList (lowerFrom [] s.toList)

end CallScript.Text
