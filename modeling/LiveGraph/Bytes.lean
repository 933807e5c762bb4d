import LiveGraph.Fault
import LiveGraph.Size

/-!
# Byte strings

Record arrays are byte strings. This module holds the ways they are touched: a slice is read, a slice
is overwritten in place, the whole is cut or padded with zeros, and pieces are joined. Numbers stand
in them with the least significant byte first.
-/

namespace LiveGraph

/-- A byte string. -/
abbrev Bytes := Array UInt8

namespace Bytes

/-- The byte string of `n` bytes `x`; more than an array can have are a fault. -/
def filled (n : Nat) (x : UInt8) : Except Fault Bytes :=
  if fitsArray n 1 then .ok (Array.replicate n x) else .error .overflow

/-! ## Slices -/

/-- The bytes `start .. stop`; a range that runs backwards or past the end is a fault. -/
def slice (b : Bytes) (start stop : Nat) : Except Fault Bytes :=
  if start ≤ stop ∧ stop ≤ b.size then .ok (b.extract start stop) else .error .outOfRange

/-- Writes a list of bytes from position `i` on; what would fall behind the end is dropped. -/
def overwrite (b : Bytes) (i : Nat) : List UInt8 → Bytes
  | [] => b
  | x :: xs => overwrite (b.setIfInBounds i x) (i + 1) xs

@[simp] theorem size_overwrite (b : Bytes) (i : Nat) (xs : List UInt8) :
    (b.overwrite i xs).size = b.size := by
  induction xs generalizing b i with
  | nil => rfl
  | cons x xs ih => simp [overwrite, ih]

/-- The byte string with exactly `n` bytes: cut at the end, or padded with zeros. -/
def resize (b : Bytes) (n : Nat) : Bytes :=
  if b.size = n then b else b.extract 0 n ++ Array.replicate (n - b.size) 0

@[simp] theorem size_resize (b : Bytes) (n : Nat) : (b.resize n).size = n := by
  unfold resize
  split
  · assumption
  · simp; omega

/-- Some byte strings, one after the other. -/
def joined (parts : List Bytes) : Bytes := parts.foldl (· ++ ·) #[]

/-! ## Numbers -/

/-- The `w` bytes of a number, least significant first. -/
def ofNat : Nat → Nat → List UInt8
  | 0, _ => []
  | w + 1, n => UInt8.ofNat n :: ofNat w (n / 256)

/-- The number with the given bytes, least significant first. -/
def toNat : List UInt8 → Nat
  | [] => 0
  | x :: xs => x.toNat + 256 * toNat xs

@[simp] theorem length_ofNat (w n : Nat) : (ofNat w n).length = w := by
  induction w generalizing n with
  | zero => rfl
  | succ w ih => simp [ofNat, ih]

theorem toNat_ofNat (w n : Nat) : toNat (ofNat w n) = n % Nat.pow 256 w := by
  induction w generalizing n with
  | zero => simp [ofNat, toNat, Nat.mod_one]
  | succ w ih =>
    simp only [ofNat, toNat, ih, Nat.pow_eq, Nat.pow_succ']
    rw [Nat.mod_mul]
    simp

theorem toNat_lt (xs : List UInt8) : toNat xs < Nat.pow 256 xs.length := by
  induction xs with
  | nil => simp [toNat]
  | cons x xs ih =>
    have hx : x.toNat < 256 := x.toNat_lt
    simp only [toNat, List.length_cons, Nat.pow_eq, Nat.pow_succ] at ih ⊢
    omega

theorem ofNat_toNat (xs : List UInt8) : ofNat xs.length (toNat xs) = xs := by
  induction xs with
  | nil => rfl
  | cons x xs ih =>
    have hx : x.toNat < 256 := x.toNat_lt
    have h₁ : (x.toNat + 256 * toNat xs) / 256 = toNat xs := by omega
    have h₂ : UInt8.ofNat (x.toNat + 256 * toNat xs) = x := by
      apply UInt8.toNat_inj.mp
      simp only [UInt8.toNat_ofNat']
      omega
    simp [ofNat, toNat, h₁, h₂, ih]

end Bytes

end LiveGraph
