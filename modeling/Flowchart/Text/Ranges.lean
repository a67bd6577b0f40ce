/-!
# Classes of characters

A class of characters is given by the ranges of its code points, ends included, in rising order.
-/

namespace Flowchart.Text

/-- Whether a character lies in one of the ranges. -/
def inRanges (ranges : List (Nat × Nat)) (c : Char) : Bool :=
  ranges.any fun (first, last) => decide (first ≤ c.toNat) && decide (c.toNat ≤ last)

end Flowchart.Text
