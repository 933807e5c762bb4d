/-!
# Ranges of characters

A property of characters is kept as the ranges of code points that have it, in ascending order.
-/

namespace LiveGraph

namespace Text

/-- Ranges of code points, first and last of each. -/
abbrev CodeRanges := List (Nat × Nat)

/-- The character lies in one of the ranges. -/
def CodeRanges.has (ranges : CodeRanges) (c : Char) : Bool :=
  ranges.any fun (first, last) => first ≤ c.toNat && c.toNat ≤ last

end Text

end LiveGraph
