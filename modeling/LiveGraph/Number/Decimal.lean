import LiveGraph.Number.Rounding

/-!
# Decimal numbers

A decimal number is a whole number of powers of ten. This module ties decimals to singles:

* `Decimal.toSingle` is the single nearest to a decimal;
* `Decimal.shortest` is the decimal with the fewest digits that has a given single as its nearest,
  and of those the one nearest to the single.
-/

namespace LiveGraph

/-- The number `digits * 10 ^ exponent`. -/
structure Decimal where
  digits : Nat
  exponent : Int
deriving DecidableEq, Repr, Inhabited

namespace Decimal

/-- The decimal as a quotient. -/
def ratio (d : Decimal) : Nat × Nat :=
  if 0 ≤ d.exponent then (d.digits * Nat.pow 10 d.exponent.toNat, 1)
  else (d.digits, Nat.pow 10 (-d.exponent).toNat)

/-- The digits of a whole number. -/
def written (n : Nat) : List Char := Nat.toDigits 10 n

/-- The magnitude bits of the nearest single. Decimals from `10 ^ 40` on are infinite and those
below `10 ^ -51` are zero, so no large powers are computed for them. -/
def nearest (d : Decimal) : Nat :=
  let place := (written d.digits).length + d.exponent
  if d.digits = 0 ∨ place < -50 then 0
  else if 40 < place then Single.infinityBits
  else
    let (num, den) := d.ratio
    Single.nearest num den

/-- The nearest single, with a sign. -/
def toSingle (d : Decimal) (negative : Bool) : Single := .ofMagnitude negative d.nearest

/-- The decimal with the given exponent that is nearest to a single, among its two neighbours that
have the single as their nearest. A tie goes to the larger. -/
def neighbour? (x : Single) (exponent : Int) : Option Decimal :=
  let (ten, den) := Decimal.ratio ⟨1, -exponent⟩
  let num := x.units * ten
  let den := den * Nat.pow 2 Single.unitPlaces
  let below : Decimal := ⟨num / den, exponent⟩
  let above : Decimal := ⟨num / den + 1, exponent⟩
  let hits (d : Decimal) : Bool := d.nearest == x.magnitude
  match hits below, hits above with
  | true, true => some (if 2 * (num % den) < den then below else above)
  | true, false => some below
  | false, true => some above
  | false, false => none

/-- The exponents of the decimals that stand for singles, from the coarsest down. Nine digits always
suffice. -/
def exponents : List Int := (List.range 95).map fun (n : Nat) => 40 - (n : Int)

/-- The decimal with the fewest digits that stands for a finite single but zero. A number of fewer
digits is one with a larger exponent, so the first exponent that has one wins. -/
def shortest (x : Single) : Decimal := (exponents.findSome? (neighbour? x)).getD ⟨0, 0⟩

end Decimal

end LiveGraph
