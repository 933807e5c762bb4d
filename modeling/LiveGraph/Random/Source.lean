/-!
# Random sources

A random source gives words, each with the source that gives the next ones. Everything that is drawn
at random is drawn from words, so a source and its seed fix all draws.

* `SplitMix` mixes a counter that advances by a fixed odd step;
* `ChaCha` is the key stream of the ChaCha cipher with twelve rounds, its key expanded from a word.
-/

namespace LiveGraph

/-- A source of random words. -/
class RandomSource (γ : Type) where
  next32 : γ → UInt32 × γ
  next64 : γ → UInt64 × γ

/-! ## Mixed counter -/

/-- A counter whose values are mixed. -/
structure SplitMix where
  state : UInt64
deriving DecidableEq, Repr, Inhabited

namespace SplitMix

/-- The output for a value of the counter. -/
def mix (z : UInt64) : UInt64 :=
  let z := (z ^^^ (z >>> 30)) * 0xbf58476d1ce4e5b9
  let z := (z ^^^ (z >>> 27)) * 0x94d049bb133111eb
  z ^^^ (z >>> 31)

/-- The next word. -/
def next (s : SplitMix) : UInt64 × SplitMix :=
  let state := s.state + 0x9e3779b97f4a7c15
  (mix state, ⟨state⟩)

instance : RandomSource SplitMix where
  next32 s := let (w, s) := s.next; ((w >>> 32).toUInt32, s)
  next64 := next

end SplitMix

/-! ## Key stream -/

/-- The sixteen words of the cipher's state. -/
abbrev ChaChaBlock := Vector UInt32 16

/-- The word `x`, its bits turned left by `n`. -/
def turnLeft (x n : UInt32) : UInt32 := (x <<< n) ||| (x >>> (32 - n))

namespace ChaChaBlock

/-- Mixes four words. -/
def quarterRound (v : ChaChaBlock) (a b c d : Fin 16) : ChaChaBlock :=
  let half (v : ChaChaBlock) (n m : UInt32) : ChaChaBlock :=
    let v := v.set a (v.get a + v.get b)
    let v := v.set d (turnLeft (v.get d ^^^ v.get a) n)
    let v := v.set c (v.get c + v.get d)
    v.set b (turnLeft (v.get b ^^^ v.get c) m)
  half (half v 16 12) 8 7

/-- Mixes the columns, then the diagonals. -/
def doubleRound (v : ChaChaBlock) : ChaChaBlock :=
  let v := v.quarterRound 0 4 8 12
  let v := v.quarterRound 1 5 9 13
  let v := v.quarterRound 2 6 10 14
  let v := v.quarterRound 3 7 11 15
  let v := v.quarterRound 0 5 10 15
  let v := v.quarterRound 1 6 11 12
  let v := v.quarterRound 2 7 8 13
  v.quarterRound 3 4 9 14

/-- The state for a key and a block number. -/
def start (key : Vector UInt32 8) (number : Nat) : ChaChaBlock :=
  let low := UInt32.ofNat number
  let high := UInt32.ofNat (number / Nat.pow 2 32)
  let constants : Vector UInt32 4 := #v[0x61707865, 0x3320646e, 0x79622d32, 0x6b206574]
  constants ++ key ++ #v[low, high, 0, 0]

/-- The key stream's block of a number: the state after twelve rounds, added to the state. -/
def keyStream (key : Vector UInt32 8) (number : Nat) : ChaChaBlock :=
  let s := start key number
  s.zipWith (· + ·) (Nat.repeat doubleRound 6 s)

end ChaChaBlock

/-- A place in a key stream. -/
structure ChaCha where
  key : Vector UInt32 8
  /-- The words drawn so far. -/
  drawn : Nat := 0
  /-- The block that the next word is in; it is computed when its first word is drawn. -/
  block : ChaChaBlock := .replicate 16 0
deriving DecidableEq, Repr

namespace ChaCha

/-- The word that a value of the key's counter gives. -/
def keyWord (state : UInt64) : UInt32 :=
  let x := (((state >>> 18) ^^^ state) >>> 27).toUInt32
  let n := (state >>> 59).toUInt32
  (x >>> n) ||| (x <<< (32 - n))

/-- The next value of the key's counter. -/
def keyStep (state : UInt64) : UInt64 := state * 6364136223846793005 + 11634580027462260723

/-- The stream of a seed: the words of the key come one by one from a counter that starts at it. -/
def ofSeed (seed : UInt64) : ChaCha :=
  { key := Vector.ofFn fun i => keyWord (Nat.repeat keyStep (i.val + 1) seed) }

/-- The next word. -/
def next (c : ChaCha) : UInt32 × ChaCha :=
  let i : Fin 16 := ⟨c.drawn % 16, Nat.mod_lt _ (by decide)⟩
  let block := if i.val = 0 then ChaChaBlock.keyStream c.key (c.drawn / 16) else c.block
  (block.get i, { c with drawn := c.drawn + 1, block })

instance : RandomSource ChaCha where
  next32 := next
  next64 c :=
    let (low, c) := c.next
    let (high, c) := c.next
    (low.toUInt64 ||| (high.toUInt64 <<< 32), c)

end ChaCha

end LiveGraph
