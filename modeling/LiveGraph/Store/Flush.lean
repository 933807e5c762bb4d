import LiveGraph.Store.Basic

/-!
# Flushing

A flush publishes what changed since the flush before. It goes through the dirty blocks in the order
in which they became dirty, and sends a block whole if at least `maxModified` of its slots changed,
else slot by slot. All events of one flush carry the same snapshot.

A flush is a list of moves: publish an event, or forget the changes of a block once they are out.
The list of dirty blocks is emptied before the first move, so a flush that is broken off leaves the
blocks it did not reach with their changes, but outside that list.
-/

namespace LiveGraph

/-- One move of a flush. -/
inductive FlushMove
  /-- Publish an event. -/
  | publish (e : Event)
  /-- Forget the changes of a block. -/
  | settle (block : Nat)
deriving DecidableEq, Repr

namespace Store

variable {ρ τ : Type} [Record ρ]

/-- The events for one block, reading from a given snapshot. -/
def blockEvents (s : Store ρ τ) (buffer : Snapshot) (b : Nat) : List Event :=
  let start := b * s.config.blockSize
  let modified := s.modified b
  if s.config.maxModified ≤ modified.size then
    [.range (Record.kind ρ) start (min (start + s.config.blockSize) s.capacity) buffer]
  else modified.toList.map fun o => .slot (Record.kind ρ) (start + o.toNat) buffer

/-- The moves of a flush. -/
def flushMoves (s : Store ρ τ) (buffer : Snapshot) : List FlushMove :=
  s.dirtyBlocks.toList.flatMap fun b =>
    (s.blockEvents buffer b).map .publish ++ [.settle b]

/-- Takes one move. -/
def takeMove : FlushMove → Edit Fault (Store ρ τ) Unit
  | .publish e => Edit.publish e
  | .settle b => Edit.change fun s => { s with changes := s.changes.modify b (·.clear) }

/-- Publishes the changes since the last flush. -/
def flush : Edit Fault (Store ρ τ) Unit := do
  let s ← Edit.read
  if s.dirtyBlocks.isEmpty then return
  let buffer ← Edit.ofExcept s.snapshot
  Edit.change ({ · with dirtyBlocks := #[] })
  (s.flushMoves buffer).forM takeMove

end Store

end LiveGraph
