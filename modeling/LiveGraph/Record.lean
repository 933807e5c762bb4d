import LiveGraph.Bytes
import LiveGraph.Kind
import LiveGraph.Number.Single

/-!
# Records

A node or an edge is shown by a record of fixed width:

* a node in 16 bytes: position (two singles), radius, three colour bytes, flags;
* an edge in 24 bytes: its two end positions, width, three colour bytes, flags.

The last byte of either holds the flags: bit 0 for a highlighted element, bit 1 for a deleted one.

Beside each record a store keeps data that is never shown: in 32 bytes for a node (a list takes three words, a
counter one), in 16 bytes for an edge (two words).
-/

namespace LiveGraph

/-! ## Flags -/

/-- The flag of a highlighted element. -/
def highlightedFlag : UInt8 := 1

/-- The flag of a deleted element. -/
def deletedFlag : UInt8 := 2

/-- A record of fixed width with a flags byte. A record is exactly its bytes. -/
class Record (ρ : Type) where
  kind : Kind
  /-- Bytes in a record. -/
  size : Nat
  /-- Bytes of what is kept beside a record. -/
  sideSize : Nat
  /-- The record's bytes; there are `size` of them. -/
  encode : ρ → List UInt8
  /-- The record with the given bytes. -/
  decode : List UInt8 → ρ
  flags : ρ → UInt8
  withFlags : ρ → UInt8 → ρ
  size_pos : 0 < size
  sideSize_power : ∃ k, sideSize = Nat.pow 2 k
  /-- Where the data beside so many records fits into an array, a power of two, the records do as well. -/
  size_lt : size < 2 * sideSize
  length_encode : ∀ r, (encode r).length = size
  decode_encode : ∀ r, decode (encode r) = r
  encode_decode : ∀ l, l.length = size → encode (decode l) = l
  flags_withFlags : ∀ r f, flags (withFlags r f) = f
  /-- The flags are the last byte. -/
  encode_withFlags : ∀ r f, encode (withFlags r f) = (encode r).set (size - 1) f

attribute [simp] Record.length_encode Record.decode_encode Record.flags_withFlags

namespace Record

variable {ρ : Type} [Record ρ]

/-- The record, marked as deleted. -/
def markDeleted (r : ρ) : ρ := withFlags r (flags r ||| deletedFlag)

/-- The record, with the mark of a deleted element taken away. -/
def clearDeleted (r : ρ) : ρ := withFlags r (flags r &&& ~~~deletedFlag)

/-- The record carries the mark of a deleted element. -/
def isDeleted (r : ρ) : Bool := flags r &&& deletedFlag != 0

/-- The record carries the mark of a highlighted element. -/
def isHighlighted (r : ρ) : Bool := flags r &&& highlightedFlag != 0

/-- The record, highlighted or not. -/
def setHighlighted (r : ρ) (on : Bool) : ρ :=
  withFlags r (if on then flags r ||| highlightedFlag else flags r &&& ~~~highlightedFlag)

/-- What holds of every pattern of eight bits holds of every flags byte. -/
private theorem forall_flags {P : UInt8 → Prop} (h : ∀ x : BitVec 8, P ⟨x⟩) : ∀ f, P f :=
  fun f => h f.toBitVec

@[simp] theorem isDeleted_markDeleted (r : ρ) : isDeleted (markDeleted r) = true := by
  have hbit : ∀ f : UInt8, ((f ||| deletedFlag) &&& deletedFlag != 0) = true :=
    forall_flags (by decide)
  simp [isDeleted, markDeleted, hbit]

@[simp] theorem isDeleted_clearDeleted (r : ρ) : isDeleted (clearDeleted r) = false := by
  have hbit : ∀ f : UInt8, ((f &&& ~~~deletedFlag) &&& deletedFlag != 0) = false :=
    forall_flags (by decide)
  simp only [isDeleted, clearDeleted, flags_withFlags, hbit]

/-- Highlighting leaves the mark of a deleted element alone. -/
@[simp] theorem isDeleted_setHighlighted (r : ρ) (on : Bool) :
    isDeleted (setHighlighted r on) = isDeleted r := by
  have hset : ∀ f : UInt8, (f ||| highlightedFlag) &&& deletedFlag = f &&& deletedFlag :=
    forall_flags (by decide)
  have hclear : ∀ f : UInt8, (f &&& ~~~highlightedFlag) &&& deletedFlag = f &&& deletedFlag :=
    forall_flags (by decide)
  cases on <;> simp [isDeleted, setHighlighted, hset, hclear]

@[simp] theorem isHighlighted_setHighlighted (r : ρ) (on : Bool) :
    isHighlighted (setHighlighted r on) = on := by
  have hset : ∀ f : UInt8, ((f ||| highlightedFlag) &&& highlightedFlag != 0) = true :=
    forall_flags (by decide)
  have hclear : ∀ f : UInt8, ((f &&& ~~~highlightedFlag) &&& highlightedFlag != 0) = false :=
    forall_flags (by decide)
  rw [isHighlighted, setHighlighted, flags_withFlags]
  cases on with
  | true => exact hset _
  | false => exact hclear _

/-- The mark of a deleted element can be taken away without a change of the highlight. -/
@[simp] theorem isHighlighted_clearDeleted (r : ρ) :
    isHighlighted (clearDeleted r) = isHighlighted r := by
  have hbit : ∀ f : UInt8, (f &&& ~~~deletedFlag) &&& highlightedFlag = f &&& highlightedFlag :=
    forall_flags (by decide)
  simp only [isHighlighted, clearDeleted, flags_withFlags, hbit]

end Record

/-! ## Fields -/

/-- A position in the plane. -/
structure Point where
  x : Single
  y : Single
deriving DecidableEq, Repr, Inhabited

/-- A colour: red, green and blue. -/
structure Color where
  red : UInt8
  green : UInt8
  blue : UInt8
deriving DecidableEq, Repr, Inhabited

namespace Single

/-- The four bytes of a single. -/
def encode (x : Single) : List UInt8 := Bytes.ofNat 4 x.bits.toNat

/-- The single in the four bytes from position `i` on. -/
def decode (l : List UInt8) (i : Nat) : Single :=
  ⟨UInt32.ofNat (Bytes.toNat ((l.drop i).take 4))⟩

@[simp] theorem length_encode (x : Single) : x.encode.length = 4 := by
  simp [encode]

/-- A single is read back where its bytes stand. -/
theorem decode_eq {l : List UInt8} {i : Nat} {x : Single} {rest : List UInt8}
    (h : l.drop i = x.encode ++ rest) : decode l i = x := by
  have htake : (l.drop i).take 4 = x.encode := by
    rw [h, List.take_left' (length_encode x)]
  have hlt : x.bits.toNat < Nat.pow 256 4 := x.bits.toNat_lt
  have hbits : UInt32.ofNat (Bytes.toNat x.encode) = x.bits := by
    rw [encode, Bytes.toNat_ofNat, Nat.mod_eq_of_lt hlt, UInt32.ofNat_toNat]
  rw [decode, htake, hbits]

/-- The bytes of the single that is read at a place are those of the place. -/
theorem encode_decode_append {l : List UInt8} {i : Nat} (h : i + 4 ≤ l.length) :
    (decode l i).encode ++ l.drop (i + 4) = l.drop i := by
  have hlength : ((l.drop i).take 4).length = 4 := by
    rw [List.length_take, List.length_drop]
    omega
  have hlt := Bytes.toNat_lt ((l.drop i).take 4)
  rw [hlength] at hlt
  have hbits : (UInt32.ofNat (Bytes.toNat ((l.drop i).take 4))).toNat
      = Bytes.toNat ((l.drop i).take 4) := UInt32.toNat_ofNat_of_lt' hlt
  have hencode : (decode l i).encode = (l.drop i).take 4 := by
    have hround := Bytes.ofNat_toNat ((l.drop i).take 4)
    rw [hlength] at hround
    rw [encode, decode, hbits, hround]
  rw [hencode, ← List.drop_drop, List.take_append_drop]

end Single

namespace Point

/-- The eight bytes of a position. -/
def encode (p : Point) : List UInt8 := p.x.encode ++ p.y.encode

/-- The position in the eight bytes from position `i` on. -/
def decode (l : List UInt8) (i : Nat) : Point := ⟨Single.decode l i, Single.decode l (i + 4)⟩

@[simp] theorem length_encode (p : Point) : p.encode.length = 8 := by
  simp [encode]

/-- A position is read back where its bytes stand. -/
theorem decode_eq {l : List UInt8} {i : Nat} {p : Point} {rest : List UInt8}
    (h : l.drop i = p.encode ++ rest) : decode l i = p := by
  have hx : l.drop i = p.x.encode ++ (p.y.encode ++ rest) := by
    rw [h, encode, List.append_assoc]
  have hy : l.drop (i + 4) = p.y.encode ++ rest := by
    rw [← List.drop_drop, hx, List.drop_left' (Single.length_encode p.x)]
  rw [decode, Single.decode_eq hx, Single.decode_eq hy]

theorem encode_decode_append {l : List UInt8} {i : Nat} (h : i + 8 ≤ l.length) :
    (decode l i).encode ++ l.drop (i + 8) = l.drop i := by
  rw [encode, decode, List.append_assoc, Single.encode_decode_append (i := i + 4) (by omega),
    Single.encode_decode_append (by omega)]

end Point

namespace Color

/-- The three bytes of a colour. -/
def encode (c : Color) : List UInt8 := [c.red, c.green, c.blue]

/-- The colour in the three bytes from position `i` on. -/
def decode (l : List UInt8) (i : Nat) : Color := ⟨l.getD i 0, l.getD (i + 1) 0, l.getD (i + 2) 0⟩

end Color

/-- A byte list from a place on is the byte there and what follows. -/
theorem getD_cons_drop {l : List UInt8} {i : Nat} (h : i < l.length) :
    l.getD i 0 :: l.drop (i + 1) = l.drop i := by
  rw [List.drop_eq_getElem_cons h, List.getD_eq_getElem?_getD, List.getElem?_eq_getElem h,
    Option.getD_some]

theorem Color.encode_decode_append {l : List UInt8} {i : Nat} (h : i + 3 ≤ l.length) :
    (decode l i).encode ++ l.drop (i + 3) = l.drop i := by
  rw [encode, decode, List.cons_append, List.cons_append, List.cons_append, List.nil_append,
    getD_cons_drop (i := i + 2) (by omega), getD_cons_drop (i := i + 1) (by omega),
    getD_cons_drop (by omega)]

/-! ## Nodes and edges -/

/-- How a node is shown. -/
structure NodeRecord where
  pos : Point
  radius : Single
  fill : Color
  flags : UInt8 := 0
deriving DecidableEq, Repr, Inhabited

/-- How an edge is shown. -/
structure EdgeRecord where
  source : Point
  target : Point
  width : Single
  color : Color
  flags : UInt8 := 0
deriving DecidableEq, Repr, Inhabited

instance : Record NodeRecord where
  kind := .node
  size := 16
  sideSize := 32
  encode r := r.pos.encode ++ r.radius.encode ++ r.fill.encode ++ [r.flags]
  decode l := {
    pos := Point.decode l 0
    radius := Single.decode l 8
    fill := Color.decode l 12
    flags := l.getD 15 0 }
  flags r := r.flags
  withFlags r f := { r with flags := f }
  size_pos := by decide
  sideSize_power := ⟨5, rfl⟩
  size_lt := by decide
  length_encode r := by simp [Color.encode]
  decode_encode r := by
    have hpos : Point.decode (r.pos.encode ++ r.radius.encode ++ r.fill.encode ++ [r.flags]) 0
        = r.pos := Point.decode_eq rfl
    have hradius : Single.decode (r.pos.encode ++ r.radius.encode ++ r.fill.encode ++ [r.flags]) 8
        = r.radius := Single.decode_eq rfl
    rw [hpos, hradius]
    rfl
  encode_decode l hl := by
    have hflags : [l.getD 15 0] = l.drop 15 := by
      rw [← getD_cons_drop (by omega), List.drop_eq_nil_of_le (Nat.le_of_eq hl)]
    rw [hflags, List.append_assoc, List.append_assoc, Color.encode_decode_append (i := 12) (by omega),
      Single.encode_decode_append (i := 8) (by omega), Point.encode_decode_append (i := 0) (by omega),
      List.drop_zero]
  flags_withFlags _ _ := rfl
  encode_withFlags _ _ := rfl

instance : Record EdgeRecord where
  kind := .edge
  size := 24
  sideSize := 16
  encode r := r.source.encode ++ r.target.encode ++ r.width.encode ++ r.color.encode ++ [r.flags]
  decode l := {
    source := Point.decode l 0
    target := Point.decode l 8
    width := Single.decode l 16
    color := Color.decode l 20
    flags := l.getD 23 0 }
  flags r := r.flags
  withFlags r f := { r with flags := f }
  size_pos := by decide
  sideSize_power := ⟨4, rfl⟩
  size_lt := by decide
  length_encode r := by simp [Color.encode]
  decode_encode r := by
    have hsource : Point.decode (r.source.encode ++ r.target.encode ++ r.width.encode
        ++ r.color.encode ++ [r.flags]) 0 = r.source := Point.decode_eq rfl
    have htarget : Point.decode (r.source.encode ++ r.target.encode ++ r.width.encode
        ++ r.color.encode ++ [r.flags]) 8 = r.target := Point.decode_eq rfl
    have hwidth : Single.decode (r.source.encode ++ r.target.encode ++ r.width.encode
        ++ r.color.encode ++ [r.flags]) 16 = r.width := Single.decode_eq rfl
    rw [hsource, htarget, hwidth]
    rfl
  encode_decode l hl := by
    have hflags : [l.getD 23 0] = l.drop 23 := by
      rw [← getD_cons_drop (by omega), List.drop_eq_nil_of_le (Nat.le_of_eq hl)]
    rw [hflags, List.append_assoc, List.append_assoc, List.append_assoc,
      Color.encode_decode_append (i := 20) (by omega),
      Single.encode_decode_append (i := 16) (by omega), Point.encode_decode_append (i := 8) (by omega),
      Point.encode_decode_append (i := 0) (by omega), List.drop_zero]
  flags_withFlags _ _ := rfl
  encode_withFlags _ _ := rfl

/-- The bytes of one record of a kind. -/
def Kind.recordSize : Kind → Nat
  | .node => Record.size NodeRecord
  | .edge => Record.size EdgeRecord

/-! ## What is kept beside a record -/

/-- What is kept beside a node and never shown. -/
structure NodeData where
  /-- The slots of the edges that start or end here. -/
  adjacent : List Nat := []
  /-- Counts the nodes that the slot has held. -/
  generation : UInt64 := 0
deriving DecidableEq, Repr, Inhabited

/-- What is kept beside an edge: the slots of its end nodes. -/
structure EdgeData where
  source : Nat := 0
  target : Nat := 0
deriving DecidableEq, Repr, Inhabited

end LiveGraph
