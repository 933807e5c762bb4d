import LiveGraph.Number.Decimal
import LiveGraph.Size

/-!
# Numerals

How numbers are written by a user.

* A size is a row of digits, after a plus sign if any, below the limit of sizes.
* A single has a sign if any, digits with a point among, before or behind them, and a power of ten
  if any after an `e`; or it is one of the words `inf`, `infinity` and `nan` in any case.
-/

namespace LiveGraph

namespace Numeral

/-- The value of a row of digits. -/
def value (digits : List Char) : Nat := digits.foldl (fun n c => 10 * n + (c.toNat - 48)) 0

/-- The value of a row of digits that is all there is. -/
def digits? (cs : List Char) : Option Nat :=
  if cs.isEmpty || !cs.all Char.isDigit then none else some (value cs)

/-- Reads a number below a limit. -/
def natural? (limit : Nat) (s : String) : Option Nat :=
  let cs := match s.toList with
    | '+' :: cs => cs
    | cs => cs
  (digits? cs).filter (· < limit)

/-- Reads a size. -/
def size? (s : String) : Option Nat := natural? sizeLimit s

/-- Takes a sign off the front; tells whether it was a minus. -/
def sign : List Char → Bool × List Char
  | '-' :: cs => (true, cs)
  | '+' :: cs => (false, cs)
  | cs => (false, cs)

/-- The digits in front, and the rest. -/
def leadingDigits (cs : List Char) : List Char × List Char := cs.span Char.isDigit

/-- Reads the digits behind a point, if there is one in front. -/
def fraction : List Char → List Char × List Char
  | '.' :: cs => leadingDigits cs
  | cs => ([], cs)

/-- Reads a power of ten up to the end; nothing stands for the power zero. -/
def power? : List Char → Option Int
  | [] => some 0
  | c :: cs =>
    if c = 'e' ∨ c = 'E' then
      let (negative, cs) := sign cs
      (digits? cs).map fun n => if negative then -(n : Int) else n
    else none

/-- Reads a decimal without a sign. -/
def decimal? (cs : List Char) : Option Decimal :=
  let (whole, cs) := leadingDigits cs
  let (part, cs) := fraction cs
  if whole.isEmpty && part.isEmpty then none
  else (power? cs).map fun e => { digits := value (whole ++ part), exponent := e - part.length }

/-- Reads a word for what is no finite number. -/
def special? (cs : List Char) : Option Single :=
  match String.ofList (cs.map Char.toLower) with
  | "inf" | "infinity" => some .infinity
  | "nan" => some .nan
  | _ => none

/-- Reads a single. -/
def single? (s : String) : Option Single :=
  let (negative, cs) := sign s.toList
  match decimal? cs with
  | some d => some (d.toSingle negative)
  | none => (special? cs).map fun x => .ofMagnitude negative x.magnitude

end Numeral

end LiveGraph
