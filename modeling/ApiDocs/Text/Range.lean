/-!
# Code point ranges

Tables of Unicode properties are lists of closed ranges in ascending order.
-/

namespace ApiDocs.Text

/-- Whether a code point lies in one of the ranges. -/
def inRanges (ranges : List (Nat × Nat)) (n : Nat) : Bool :=
  ranges.any fun r => r.1 ≤ n && n ≤ r.2

end ApiDocs.Text
