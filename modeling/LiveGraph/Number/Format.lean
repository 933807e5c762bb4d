import LiveGraph.Number.Decimal

/-!
# Formats of singles

* `Single.describe` writes the fewest digits that read back, with a point, or with a power of ten
  where the number is very small or very large;
* `Single.fixed` writes a given number of places behind the point, a tie going to the even digit.
-/

namespace LiveGraph

namespace Decimal

/-- The decimal with a point, and at least one digit on either side of it. -/
def positional (d : Decimal) : String :=
  let cs := written d.digits
  let place := cs.length + d.exponent
  let zeros (n : Int) : List Char := List.replicate n.toNat '0'
  String.ofList <|
    if place ≤ 0 then '0' :: '.' :: (zeros (-place) ++ cs)
    else if 0 ≤ d.exponent then cs ++ zeros d.exponent ++ ['.', '0']
    else cs.take place.toNat ++ '.' :: cs.drop place.toNat

/-- The decimal with one digit before the point, and a power of ten; a lone digit has no point. -/
def scientific (d : Decimal) : String :=
  let cs := written d.digits
  let power := cs.length - 1 + d.exponent
  let tail := if cs.length ≤ 1 then [] else '.' :: cs.drop 1
  String.ofList (cs.take 1 ++ tail) ++ s!"e{power}"

end Decimal

namespace Single

/-- Numbers below this have a power of ten. -/
def smallest : Single := ⟨0x38d1b717⟩

/-- Numbers from this on have a power of ten. -/
def largest : Single := ⟨0x5a0e1bca⟩

/-- A text for the magnitude, with the sign of the number. -/
def signed (x : Single) (magnitude : String) : String :=
  if x.isNegative then "-" ++ magnitude else magnitude

/-- The fewest digits that read back. -/
def describe (x : Single) : String :=
  if x.isNaN then "NaN"
  else if x.isInfinite then x.signed "inf"
  else if x.magnitude = 0 then x.signed "0.0"
  else
    let d := Decimal.shortest x
    let plain := smallest.magnitude ≤ x.magnitude ∧ x.magnitude < largest.magnitude
    x.signed (if plain then d.positional else d.scientific)

/-- So many places behind the point, at least one. -/
def fixed (x : Single) (places : Nat) : String :=
  if x.isNaN then "NaN"
  else if x.isInfinite then x.signed "inf"
  else
    let n := roundDiv (x.units * Nat.pow 10 places) (Nat.pow 2 unitPlaces)
    let part := Decimal.written (n % Nat.pow 10 places)
    let zeros := List.replicate (places - part.length) '0'
    x.signed (s!"{n / Nat.pow 10 places}." ++ String.ofList (zeros ++ part))

end Single

end LiveGraph
