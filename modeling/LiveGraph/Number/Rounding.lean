import LiveGraph.Number.Single

/-!
# Rounding to single precision

Every finite single is a whole number of units, the unit being the smallest positive single,
`2 ^ -149`. So numbers are compared and rounded in whole numbers:

* `Single.units` is the magnitude of a finite single, in units;
* `Single.nearest` is the bits of the single nearest to a quotient, a tie going to even bits.
-/

namespace LiveGraph

/-- A quotient rounded to the nearest whole number; a tie goes to the even one. -/
def roundDiv (num den : Nat) : Nat :=
  let q := num / den
  let r := num % den
  if 2 * r < den ∨ (2 * r = den ∧ q % 2 = 0) then q else q + 1

namespace Single

/-- The exponent of two of the unit, negated. -/
def unitPlaces : Nat := 149

/-- The bits of the fraction field. -/
def fractionBits : Nat := 23

/-- The magnitude bits of infinity. -/
def infinityBits : Nat := 0x7f800000

/-- The bits of a single but for its sign. -/
def magnitude (x : Single) : Nat := (x.bits &&& 0x7fffffff).toNat

/-- The single of a sign and a magnitude. -/
def ofMagnitude (negative : Bool) (magnitude : Nat) : Single :=
  let bits := UInt32.ofNat magnitude
  ⟨if negative then bits ||| 0x80000000 else bits⟩

/-- The magnitude of a finite single, in units. -/
def units (x : Single) : Nat :=
  let exponent := x.magnitude / Nat.pow 2 fractionBits
  let fraction := x.magnitude % Nat.pow 2 fractionBits
  if exponent = 0 then fraction else (Nat.pow 2 fractionBits + fraction) * Nat.pow 2 (exponent - 1)

/-- The magnitude bits of the single nearest to `num / den`; too large a quotient becomes infinite.
The bits count the singles from zero on, so a carry out of the fraction is a step of the
exponent. -/
def nearest (num den : Nat) : Nat :=
  let num := num * Nat.pow 2 unitPlaces
  let shift := (num / den).log2 - fractionBits
  Nat.min infinityBits (shift * Nat.pow 2 fractionBits + roundDiv num (den * Nat.pow 2 shift))

end Single

end LiveGraph
