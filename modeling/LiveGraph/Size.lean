/-!
# Sizes

Slots, counts and byte lengths are naturals below `2 ^ 64`. Sums and products of sizes are computed
exactly and refused when they leave that range, so that a wrapped index never reaches an array.
-/

namespace LiveGraph

/-- Sizes are the naturals below this bound. -/
def sizeLimit : Nat := Nat.pow 2 64

/-- No array holds this many bytes or more. -/
def arrayLimit : Nat := Nat.pow 2 63

/-- Whether an array can have `count` elements of `width` bytes each. -/
def fitsArray (count width : Nat) : Bool := count * width < arrayLimit

/-- The sum of two sizes, if it is a size. -/
def addSize? (a b : Nat) : Option Nat :=
  if a + b < sizeLimit then some (a + b) else none

/-- The product of two sizes, if it is a size. -/
def mulSize? (a b : Nat) : Option Nat :=
  if a * b < sizeLimit then some (a * b) else none

theorem addSize?_eq_some {a b c : Nat} :
    addSize? a b = some c ↔ a + b < sizeLimit ∧ c = a + b := by
  unfold addSize?
  split <;> rename_i h <;> simp [h, eq_comm]

end LiveGraph
