import LiveGraph.Edit
import LiveGraph.Record
import LiveGraph.Store.Changes

/-!
# Record stores

A store is a growing array of records, with data kept beside each of them. Its slots are handed out
in order; a deleted slot is handed out again before the array grows. The bytes lie in blocks of
`blockSize` slots, the last of which may be shorter, and each block notes which of its slots
changed, so that a flush only looks at the blocks that did.

* `Store.add` hands out slots, `Store.set` writes or deletes one;
* `Store.snapshot` is the content of the whole array, deleted and never written slots included;
* `Store.isLive` tells which slots hold an element.
-/

namespace LiveGraph

/-- A record array with records `ρ` and data `τ` beside them. -/
structure Store (ρ τ : Type) where
  config : StoreConfig
  /-- Slots ever handed out; a slot is below `len` from then on. -/
  len : Nat := 0
  /-- Slots that the blocks have room for. -/
  capacity : Nat := 0
  blocks : Array Bytes := #[]
  side : Array τ := #[]
  changes : Array BlockChanges := #[]
  /-- The blocks with changes, in the order in which they got their first one. -/
  dirtyBlocks : Array Nat := #[]
  /-- The deleted slots, the one deleted last in front. -/
  free : List Nat := []
  /-- Whether a slot is in `free`. -/
  isFree : Array Bool := #[]

namespace Store

variable {ρ τ : Type} [Record ρ]

/-- The empty store with a given division. -/
def new (config : StoreConfig) : Except Fault (Store ρ τ) :=
  match config.validate with
  | .ok _ => .ok { config }
  | .error _ => .error (.storeConfig config)

/-! ## Reading -/

/-- The block of a slot, and where in it the slot's bytes start. -/
def locate (s : Store ρ τ) (slot : Nat) : Nat × Nat :=
  (slot / s.config.blockSize, slot % s.config.blockSize * Record.size ρ)

/-- The record in a slot; any slot below the capacity has one. -/
def record (s : Store ρ τ) (slot : Nat) : Except Fault ρ :=
  let (b, offset) := s.locate slot
  match s.blocks[b]? with
  | none => .error .outOfRange
  | some block => do
    let bytes ← block.slice offset (offset + Record.size ρ)
    return Record.decode bytes.toList

/-- What is kept beside a slot; any slot below the capacity has it. -/
def data (s : Store ρ τ) (slot : Nat) : Except Fault τ :=
  match s.side[slot]? with
  | some d => .ok d
  | none => .error .outOfRange

/-- The slot was handed out, and is neither free nor marked as deleted. -/
def isLive (s : Store ρ τ) (slot : Nat) : Bool :=
  slot < s.len && !s.isFree.getD slot false &&
    match s.record slot with
    | .ok r => !Record.isDeleted r
    | .error _ => false

/-- The live slots with their records, in slot order. -/
def live (s : Store ρ τ) : List (Nat × ρ) :=
  (List.range s.len).filterMap fun slot =>
    if s.isLive slot then s.record slot |>.toOption |>.map (slot, ·) else none

/-- The content of the whole array. -/
def snapshot (s : Store ρ τ) : Except Fault Snapshot :=
  Snapshot.ofBlocks s.blocks (Record.size ρ) s.config.blockSize s.capacity

/-- Slots that are free. -/
def freeCount (s : Store ρ τ) : Nat := s.free.length

/-- Slots handed out and not free. -/
def liveCount (s : Store ρ τ) : Nat := s.len - s.free.length

/-- Blocks with changes. -/
def dirtyBlockCount (s : Store ρ τ) : Nat := s.dirtyBlocks.size

/-- The changed offsets of a block. -/
def modified (s : Store ρ τ) (b : Nat) : Array UInt16 :=
  match s.changes[b]? with
  | some c => c.modified
  | none => #[]

/-- Slots that changed since the last flush. -/
def pendingChanges (s : Store ρ τ) : Nat :=
  (s.dirtyBlocks.toList.flatMap fun b => (s.modified b).toList).length

/-- The store as it stands in messages. -/
def describe (s : Store ρ τ) : String :=
  s!"RecordStore \x7b kind: {(Record.kind ρ).label}, len: {s.len}, capacity: {s.capacity}, " ++
    s!"free: {s.freeCount}, dirty_blocks: {s.dirtyBlockCount}, .. \x7d"

/-! ## Growing -/

/-- The capacity for `needed` slots: `capacity` doubled until it is enough; where doubling leaves
the range of sizes, what is needed itself. -/
def doubled (capacity needed : Nat) : Nat :=
  if capacity < needed then
    if h : 0 < capacity ∧ 2 * capacity < sizeLimit then doubled (2 * capacity) needed
    else needed
  else capacity
termination_by needed - capacity

/-- The array with further elements `x` up to size `n`. -/
def padded {α : Type} (a : Array α) (n : Nat) (x : α) : Array α :=
  a ++ Array.replicate (n - a.size) x

/-- The bytes of block `b` in an array of so many slots. -/
def blockBytes (ρ : Type) [Record ρ] (config : StoreConfig) (capacity b : Nat) : Nat :=
  min (capacity - b * config.blockSize) config.blockSize * Record.size ρ

/-- The blocks of an array of so many slots. -/
def blockCount (config : StoreConfig) (capacity : Nat) : Nat :=
  (capacity + config.blockSize - 1) / config.blockSize

/-- The store with room for `capacity` slots; new slots hold zeros. -/
def grown [Inhabited τ] (s : Store ρ τ) (capacity : Nat) : Store ρ τ :=
  let count := blockCount s.config capacity
  { s with
    capacity
    blocks := (Array.range count).map fun b =>
      Bytes.resize (s.blocks.getD b #[]) (blockBytes ρ s.config capacity b)
    changes := padded s.changes count (.none s.config.blockSize)
    side := padded s.side capacity default
    isFree := padded s.isFree capacity false }

/-- Makes room for `needed` slots, and publishes the new array. What is kept beside the slots lies in
one array, which must be within the limit on arrays; records lie in blocks, which always are. -/
def grow [Inhabited τ] (needed : Nat) : Edit Fault (Store ρ τ) Unit := do
  let capacity := doubled (max (← Edit.read).capacity 1) needed
  if !fitsArray capacity (Record.sideSize ρ) then throw .overflow
  Edit.change (·.grown capacity)
  let buffer ← Edit.ofExcept (← Edit.read).snapshot
  Edit.publish (.replaced (Record.kind ρ) capacity buffer)

/-- Hands out `count` slots in a row, and answers the first. A single slot is taken from the free
ones if there are any. -/
def add [Inhabited τ] (count : Nat) : Edit Fault (Store ρ τ) Nat := do
  if count = 0 then throw (.emptyRequest (Record.kind ρ))
  let s ← Edit.read
  match if count = 1 then s.free else [] with
  | slot :: free =>
    Edit.change fun s => { s with free, isFree := s.isFree.setIfInBounds slot false }
    return slot
  | [] =>
    match addSize? s.len count with
    | none => throw (.tooManySlots (Record.kind ρ) s.len count)
    | some needed =>
      if s.capacity < needed then grow needed
      Edit.change ({ · with len := needed })
      return s.len

/-! ## Writing -/

/-- Whether the blocks have the bytes of a slot. -/
def hasBytes (s : Store ρ τ) (slot : Nat) : Bool :=
  let (b, offset) := s.locate slot
  match s.blocks[b]? with
  | some block => offset + Record.size ρ ≤ block.size
  | none => false

/-- Writes a record over the bytes of a slot. -/
def write (slot : Nat) (r : ρ) : Edit Fault (Store ρ τ) Unit := do
  if !(← Edit.read).hasBytes slot then throw .outOfRange
  Edit.change fun s =>
    let (b, offset) := s.locate slot
    { s with blocks := s.blocks.modify b (Bytes.overwrite · offset (Record.encode r)) }

/-- Whether a slot changes in a block that had no changes, so that the block becomes dirty. -/
def dirties (s : Store ρ τ) (b : Nat) (offset : UInt16) : Bool :=
  match s.changes[b]? with
  | some c => c.modified.isEmpty && !c.isMarked offset
  | none => false

/-- Notes that a slot changed. -/
def mark (s : Store ρ τ) (slot : Nat) : Store ρ τ :=
  let b := slot / s.config.blockSize
  let offset := UInt16.ofNat (slot % s.config.blockSize)
  let dirtyBlocks := if s.dirties b offset then s.dirtyBlocks.push b else s.dirtyBlocks
  { s with changes := s.changes.modify b (·.mark offset), dirtyBlocks }

/-- Puts a slot on top of the free ones, unless it is free already. -/
def release (s : Store ρ τ) (slot : Nat) : Store ρ τ :=
  if s.isFree.getD slot false then s
  else { s with free := slot :: s.free, isFree := s.isFree.setIfInBounds slot true }

/-- Writes a record, or deletes the slot: then the record stays and is marked as deleted, and the
slot becomes free. Either way the slot has changed. -/
def set (slot : Nat) (value : Option ρ) : Edit Fault (Store ρ τ) Unit := do
  let len := (← Edit.read).len
  if len ≤ slot then throw (.neverAllocated slot len)
  match value with
  | some r =>
    if (← Edit.read).isFree.getD slot false then throw (.freeSlot slot)
    write slot r
  | none =>
    let r ← Edit.ofExcept ((← Edit.read).record slot)
    write slot (Record.markDeleted r)
    Edit.change (·.release slot)
  Edit.change (·.mark slot)

/-- Changes what is kept beside a slot. -/
def modifyData (slot : Nat) (f : τ → τ) : Edit Fault (Store ρ τ) Unit := do
  if (← Edit.read).side.size ≤ slot then throw .outOfRange
  Edit.change fun s => { s with side := s.side.modify slot f }

end Store

end LiveGraph
