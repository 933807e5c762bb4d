import LiveGraph.Config
import LiveGraph.Kind

/-!
# Faults

A fault is the abort of a call whose caller broke its contract: a slot that was never handed out, a
range that ends before it starts, a size that leaves the 64-bit range. A call that faults leaves the
state that it had reached.
-/

namespace LiveGraph

/-- Why a call aborts. -/
inductive Fault
  /-- No slots were asked for. -/
  | emptyRequest (kind : Kind)
  /-- More slots were asked for than can be numbered. -/
  | tooManySlots (kind : Kind) (len count : Nat)
  /-- The slot was never handed out. -/
  | neverAllocated (slot len : Nat)
  /-- The slot is free, and free slots are not written. -/
  | freeSlot (slot : Nat)
  /-- A snapshot has no such slot. -/
  | beyondCapacity (slot capacity : Nat)
  /-- Records of no bytes cannot be counted. -/
  | emptyRecord
  /-- The store cannot be divided this way. -/
  | storeConfig (config : StoreConfig)
  /-- The blocks hold fewer bytes than the capacity asks for. -/
  | shortBlocks
  /-- A sum or product of sizes is no size. -/
  | overflow
  /-- A division by a record size of zero. -/
  | divisionByZero
  /-- An index or a range outside its array. -/
  | outOfRange
  /-- A record is read from a different number of bytes. -/
  | recordSize
  /-- A listener gave up while an event was delivered to it. -/
  | listener
deriving DecidableEq, Repr

namespace Fault

/-- The message of a fault that the library words itself. -/
def message? : Fault → Option String
  | emptyRequest k => some s!"store.add({k.label}): count must be positive"
  | tooManySlots k len count => some s!"store.add({k.label}): {len} + {count} slots overflow"
  | neverAllocated slot len => some s!"slot {slot} was never allocated (len {len})"
  | freeSlot slot => some s!"writing to free slot {slot}"
  | beyondCapacity slot capacity => some s!"slot {slot} out of bounds (capacity {capacity})"
  | emptyRecord => some "record size must be positive"
  | storeConfig c => some s!"invalid store config: {c.describe}"
  | shortBlocks => some "blocks are smaller than the declared capacity"
  | overflow | divisionByZero | outOfRange | recordSize | listener => none

end Fault

/-- A call that does not answer either reports an error of its own or aborts. -/
inductive Failure (ε : Type)
  | error (e : ε)
  | fault (f : Fault)
deriving DecidableEq, Repr

end LiveGraph
