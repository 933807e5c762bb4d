import LiveGraph.Bytes

/-!
# Snapshots

A snapshot is the content of a record array at one moment. It is cut into blocks of `blockSize`
records, of which the last may be shorter; readers ask for slots and never see the blocks, except
that a range of slots comes in one piece per block.
-/

namespace LiveGraph

/-- The content of a record array at one moment. -/
structure Snapshot where
  /-- Bytes in a record. -/
  recordSize : Nat
  /-- Records in every block but the last. -/
  blockSize : Nat
  /-- Records in the snapshot. -/
  capacity : Nat
  blocks : Array Bytes
deriving DecidableEq, Repr, Inhabited

namespace Snapshot

/-- A product of sizes; one that is no size is a fault. -/
def product (a b : Nat) : Except Fault Nat :=
  match mulSize? a b with
  | some n => .ok n
  | none => .error .overflow

/-- A sum of sizes; one that is no size is a fault. -/
def sum (a b : Nat) : Except Fault Nat :=
  match addSize? a b with
  | some n => .ok n
  | none => .error .overflow

/-- A snapshot over given blocks, which must hold enough bytes. -/
def ofBlocks (blocks : Array Bytes) (recordSize blockSize capacity : Nat) :
    Except Fault Snapshot := do
  let needed ← product capacity recordSize
  if blocks.toList.foldl (fun size block => size + block.size) 0 < needed then .error .shortBlocks
  else .ok { recordSize, blockSize, capacity, blocks }

/-- The snapshot of one byte string; bytes behind the last whole record are not part of it. -/
def ofBytes (recordSize : Nat) (bytes : Bytes) : Except Fault Snapshot :=
  if recordSize = 0 then .error .emptyRecord
  else
    let capacity := bytes.size / recordSize
    ofBlocks #[bytes] recordSize (max capacity 1) capacity

/-- The snapshot without records. -/
def empty (recordSize : Nat) : Snapshot :=
  { recordSize, blockSize := 1, capacity := 0, blocks := #[] }

/-- The bytes in the snapshot. -/
def byteCount (s : Snapshot) : Except Fault Nat := product s.capacity s.recordSize

/-- The snapshot has no records. -/
def isEmpty (s : Snapshot) : Bool := s.capacity == 0

/-- The bytes of one block. -/
def block (s : Snapshot) (b : Nat) : Except Fault Bytes :=
  match s.blocks[b]? with
  | some bytes => .ok bytes
  | none => .error .outOfRange

/-- The bytes of one slot. -/
def slotBytes (s : Snapshot) (slot : Nat) : Except Fault Bytes := do
  if s.capacity ≤ slot then .error (.beyondCapacity slot s.capacity)
  else
    let offset ← product (slot % s.blockSize) s.recordSize
    let bytes ← s.block (slot / s.blockSize)
    bytes.slice offset (← sum offset s.recordSize)

/-- The part of block `b` that lies in the slots `start .. stop`. -/
def chunk (s : Snapshot) (start stop b : Nat) : Except Fault Bytes := do
  let next ← product (b + 1) s.blockSize
  let stop := min next stop
  let start := max (b * s.blockSize) start
  let offset ← product (start % s.blockSize) s.recordSize
  let count ← product (stop - start) s.recordSize
  let last ← sum offset count
  let bytes ← s.block b
  bytes.slice offset last

/-- The blocks that have a slot in `start .. stop`, in order. -/
def blocksIn (s : Snapshot) (start stop : Nat) : List Nat :=
  if start < stop then
    let first := start / s.blockSize
    List.range' first ((stop - 1) / s.blockSize + 1 - first)
  else []

/-- The slots `start .. stop`, as far as the snapshot has them, in one piece per block. -/
def chunks (s : Snapshot) (start stop : Nat) : Except Fault (List Bytes) :=
  let stop := min stop s.capacity
  let start := min start stop
  (s.blocksIn start stop).mapM (s.chunk start stop)

/-- The bytes of the slots `start .. stop`, as far as the snapshot has them. -/
def rangeBytes (s : Snapshot) (start stop : Nat) : Except Fault Bytes := do
  let parts ← s.chunks start stop
  return Bytes.joined parts

/-- All bytes of the snapshot, in slot order. -/
def toBytes (s : Snapshot) : Except Fault Bytes := s.rangeBytes 0 s.capacity

/-- Copies the slots `start .. stop` to the front of `dst`: the number of bytes copied, and `dst`
with them. -/
def copyRange (s : Snapshot) (start stop : Nat) (dst : Bytes) : Except Fault (Nat × Bytes) := do
  let bytes ← s.rangeBytes start stop
  if dst.size < bytes.size then .error .outOfRange
  else .ok (bytes.size, dst.overwrite 0 bytes.toList)

/-- The snapshot as it stands in messages, given how many hold it. -/
def describe (s : Snapshot) (handles : Nat) : String :=
  s!"SharedBuffer \x7b capacity: {s.capacity}, record_size: {s.recordSize}, blocks: " ++
    s!"{s.blocks.size}, handles: {handles} \x7d"

end Snapshot

end LiveGraph
