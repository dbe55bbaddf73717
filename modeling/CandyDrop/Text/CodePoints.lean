/-!
# Ranges of code points

A class of characters is written down as a list of ranges of code points, each with its first and
its last one.
-/

namespace CandyDrop.Text

/-- Whether a character lies in one of the ranges. -/
def inRanges (ranges : List (Nat × Nat)) (c : Char) : Bool :=
  ranges.any fun (first, last) => first ≤ c.toNat && c.toNat ≤ last

end CandyDrop.Text
