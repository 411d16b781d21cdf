/-!
Sets of code points given as inclusive ranges.
-/

namespace CatalogSync.Text

/-- The code point lies in one of the ranges. -/
def inRanges (ranges : List (Nat × Nat)) (n : Nat) : Bool :=
  ranges.any fun r => r.1 ≤ n && n ≤ r.2

end CatalogSync.Text
