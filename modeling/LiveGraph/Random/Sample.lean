import LiveGraph.Number.Double
import LiveGraph.Number.Single
import LiveGraph.Random.Source

/-!
# Samples

Numbers in a range, drawn from the words of a random source. A draw that falls outside the range, or
that would favour some of its numbers, is made again, for as long as it takes. More than half of all
words make good draws, but nothing keeps a source from giving the others only.

`Sampler` is what is drawn, without how: whatever works for every sampler works for every sequence of
draws.
-/

namespace LiveGraph

/-- A computation that draws from a random source. -/
abbrev Draw (γ α : Type) := StateM γ α

namespace Draw

variable {γ α : Type} [RandomSource γ]

/-- A word of 32 bits. -/
def word32 : Draw γ UInt32 := RandomSource.next32

/-- A word of 64 bits. -/
def word64 : Draw γ UInt64 := RandomSource.next64

/-- One attempt: a good draw is taken, with what the source is then, and a bad one leaves only that. -/
def attempt {γ α : Type} (draw : Draw γ (Bool × α)) (g : γ) : γ ⊕ (α × γ) :=
  match draw g with
  | ((true, a), g) => .inr (a, g)
  | ((false, _), g) => .inl g

/-- Draws until a draw is good, which goes on for ever if none is. -/
def untilGood {γ α : Type} (draw : Draw γ (Bool × α)) : Draw γ α := fun g =>
  have : Nonempty (α × γ) := ⟨((draw g).1.2, (draw g).2)⟩
  repeatM (m := Id) (attempt draw) g

/-- A good draw is taken at once. -/
theorem untilGood_of_good {γ α : Type} {draw : Draw γ (Bool × α)} {g g' : γ} {a : α}
    (h : draw g = ((true, a), g')) : untilGood draw g = (a, g') := by
  have hattempt : attempt draw g = .inr (a, g') := by rw [attempt, h]
  have : Nonempty (α × γ) := ⟨(a, g')⟩
  have hloop := repeatM_eq_of_monadTail (m := Id) (f := attempt draw) g
  rw [repeatM.body, hattempt] at hloop
  exact hloop

/-- After a bad draw it is as if the source had started there. -/
theorem untilGood_of_bad {γ α : Type} {draw : Draw γ (Bool × α)} {g g' : γ} {a : α}
    (h : draw g = ((false, a), g')) : untilGood draw g = untilGood draw g' := by
  have hattempt : attempt draw g = .inl g' := by rw [attempt, h]
  have : Nonempty (α × γ) := ⟨(a, g')⟩
  have hloop := repeatM_eq_of_monadTail (m := Id) (f := attempt draw) g
  rw [repeatM.body, hattempt] at hloop
  exact hloop

/-! ## Indices -/

/-- The bits in front of the first one of a word of `width` bits. -/
def leadingZeros (width n : Nat) : Nat := if n = 0 then width else width - 1 - n.log2

/-- Reduces a word of `width` bits to an index below `n`; tells whether the word is good. All
indices have equally many good words. -/
def reduce (width n word : Nat) : Bool × Nat :=
  let zone := n * Nat.pow 2 (leadingZeros width n) - 1
  (word * n % Nat.pow 2 width ≤ zone, word * n / Nat.pow 2 width)

/-- An index below `n`, from words of 64 bits. -/
def index (n : Nat) : Draw γ Nat :=
  untilGood do return reduce 64 n (← word64).toNat

/-- An index below `n`, from words of 32 bits. -/
def smallIndex (n : Nat) : Draw γ Nat :=
  untilGood do return reduce 32 n (← word32).toNat

/-- One of the elements of a list: each takes the place of the one before it with the chance that
makes all equally likely. -/
def choose? (l : List α) : Draw γ (Option α) := do
  let (_, chosen) ← l.foldlM (fun (seen, chosen) a => do
    let i ← smallIndex (seen + 1)
    return (seen + 1, if i = 0 then some a else chosen)) (0, none)
  return chosen

/-! ## Fractions -/

/-- A single of `low .. high`, from the leading 23 bits of a word. -/
def single (low high : Single) : Draw γ Single :=
  untilGood do
    let w ← word32
    let v : Single := (⟨(w >>> 9) ||| 0x3f800000⟩ : Single) - .one
    let r := v * (high - low) + low
    return (r.lt high, r)

/-- A double of `0 .. 1`, from the leading 52 bits of a word. -/
def fraction : Draw γ Double := do
  let w ← word64
  return .ofFloat ((⟨(w >>> 12) ||| 0x3ff0000000000000⟩ : Double).toFloat - 1.0)

/-- A byte, the last of a word. -/
def byte : Draw γ UInt8 := do return (← word32).toUInt8

end Draw

/-! ## Samplers -/

/-- What is drawn from a state `γ`. -/
class Sampler (γ : Type) where
  /-- An index below a number. -/
  index : Nat → Draw γ Nat
  /-- A single from a first one up to a second one. -/
  single : Single → Single → Draw γ Single
  /-- A double of `0 .. 1`. -/
  fraction : Draw γ Double
  byte : Draw γ UInt8

/-- The samples of a random source. -/
instance {γ : Type} [RandomSource γ] : Sampler γ where
  index := Draw.index
  single := Draw.single
  fraction := Draw.fraction
  byte := Draw.byte

/-- Indices are in range, where there are any. -/
def Sampler.InRange (γ : Type) [Sampler γ] : Prop := ∀ n (g : γ), 0 < n → (index n g).1 < n

end LiveGraph
