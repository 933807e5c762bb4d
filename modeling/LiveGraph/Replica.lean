import LiveGraph.Event
import LiveGraph.Record

/-!
# Replicas

A consumer keeps a byte copy of each record array. Applying every event of a store in order keeps
the copy equal to what the store last published. A `GraphReplica` pairs the two copies of a graph
with the name of the task that runs.
-/

namespace LiveGraph

/-- Why a replica refuses an update. -/
inductive ReplicaError
  /-- The update addresses slots that the replica or the snapshot does not have. -/
  | outOfBounds (kind : Kind) (start stop capacity : Nat)
  /-- The update carries records of another width. -/
  | recordSize (kind : Kind) (expected actual : Nat)
deriving DecidableEq, Repr

namespace ReplicaError

/-- The message of a refused update. -/
def message : ReplicaError → String
  | outOfBounds k start stop capacity =>
    s!"{k.label} update for slots {start}..{stop} beyond mirrored capacity {capacity}"
  | recordSize k expected actual =>
    s!"{k.label} update carries {actual}-byte records, mirror holds {expected}-byte records"

end ReplicaError

/-- A byte copy of one record array. -/
structure Replica where
  kind : Kind
  recordSize : Nat
  bytes : Bytes := #[]
deriving DecidableEq, Repr, Inhabited

namespace Replica

/-- The slots in the copy. -/
def capacity (r : Replica) : Except Fault Nat :=
  if r.recordSize = 0 then .error .divisionByZero else .ok (r.bytes.size / r.recordSize)

/-- The byte positions of the slots `start .. stop`. -/
def extent (r : Replica) (start stop : Nat) : Except Fault (Nat × Nat) := do
  let first ← Snapshot.product start r.recordSize
  let last ← Snapshot.product stop r.recordSize
  return (first, last)

/-- The bytes of the slots `start .. stop`. -/
def slotBytes (r : Replica) (start stop : Nat) : Except Fault Bytes := do
  let (first, last) ← r.extent start stop
  r.bytes.slice first last

/-- The bytes of one slot, if the copy has it. -/
def slot? (r : Replica) (slot : Nat) : Except Fault (Option Bytes) := do
  if (← r.capacity) ≤ slot then return none
  else return some (← r.slotBytes slot (slot + 1))

/-- Whether the copy has at least `len` slots, and the first `len` hold the bytes that `expected`
starts with. -/
def agrees (r : Replica) (len : Nat) (expected : Bytes) : Bool :=
  match r.capacity, r.slotBytes 0 len with
  | .ok capacity, .ok bytes => len ≤ capacity && bytes == expected.extract 0 bytes.size
  | _, _ => false

/-- A step of a replica, which keeps what it changed before it failed. -/
abbrev Step (α : Type) := EStateM (Failure ReplicaError) Replica α

/-- The answer of a reading that may fault. -/
def lift {σ ε α : Type} : Except Fault α → EStateM (Failure ε) σ α
  | .ok a => pure a
  | .error f => throw (.fault f)

/-- Takes the snapshot as the new content, then gives it `capacity` slots. -/
def rebase (capacity : Nat) (buffer : Snapshot) : Step Unit := do
  let bytes ← lift buffer.toBytes
  modify ({ · with bytes })
  let size ← lift (Snapshot.product capacity (← get).recordSize)
  if !fitsArray size 1 then throw (.fault .overflow)
  modify fun r => { r with bytes := r.bytes.resize size }

/-- Copies the slots `start .. stop` from the snapshot. -/
def patch (start stop : Nat) (buffer : Snapshot) : Step Unit := do
  let r ← get
  let capacity ← lift r.capacity
  if capacity < stop ∨ buffer.capacity < stop then
    throw (.error (.outOfBounds r.kind start stop capacity))
  let (first, last) ← lift (r.extent start stop)
  let dst ← lift (r.bytes.slice first last)
  let (_, changed) ← lift (buffer.copyRange start stop dst)
  modify fun r => { r with bytes := r.bytes.overwrite first changed.toList }

/-- Applies one event, and tells whether it was for this replica. -/
def apply (event : Event) : Step Bool := do
  let r ← get
  if event.kind? ≠ some r.kind then return false
  match event.buffer?, ← lift event.slots? with
  | some buffer, some (start, stop) =>
    if buffer.recordSize ≠ r.recordSize then
      throw (.error (.recordSize r.kind r.recordSize buffer.recordSize))
    match event with
    | .replaced _ capacity _ => rebase capacity buffer
    | _ => patch start stop buffer
    return true
  | _, _ => return false

/-- The replica after one more event; an event it refuses leaves it as it is. -/
def follow (r : Replica) (e : Event) : Replica :=
  match apply e r with
  | .ok _ r => r
  | .error _ r => r

end Replica

/-- The copies of both record arrays, and the task that runs. -/
structure GraphReplica where
  nodes : Replica := { kind := .node, recordSize := Record.size NodeRecord }
  edges : Replica := { kind := .edge, recordSize := Record.size EdgeRecord }
  task : Option String := none
  /-- Events applied so far. -/
  applied : Nat := 0
deriving DecidableEq, Repr, Inhabited

namespace GraphReplica

/-- A step of a graph replica, which keeps what it changed before it failed. -/
abbrev Step (α : Type) := EStateM (Failure ReplicaError) GraphReplica α

/-- A step of the node copy. -/
def onNodes {α : Type} (step : Replica.Step α) : Step α := fun ⟨nodes, edges, task, applied⟩ =>
  match step nodes with
  | .ok a nodes => .ok a ⟨nodes, edges, task, applied⟩
  | .error e nodes => .error e ⟨nodes, edges, task, applied⟩

/-- A step of the edge copy. -/
def onEdges {α : Type} (step : Replica.Step α) : Step α := fun ⟨nodes, edges, task, applied⟩ =>
  match step edges with
  | .ok a edges => .ok a ⟨nodes, edges, task, applied⟩
  | .error e edges => .error e ⟨nodes, edges, task, applied⟩

/-- The copy of a kind. -/
def replica (r : GraphReplica) : Kind → Replica
  | .node => r.nodes
  | .edge => r.edges

/-- Applies one event to the copy it is for, and counts it unless it was refused. -/
def apply (event : Event) : Step Unit := do
  match event with
  | .task name => modify ({ · with task := name })
  | _ =>
    let _ ← onNodes (Replica.apply event)
    let _ ← onEdges (Replica.apply event)
  modify fun r => { r with applied := r.applied + 1 }

/-- The replica after one more event; an event it refuses is not counted. -/
def follow (r : GraphReplica) (e : Event) : GraphReplica :=
  match apply e r with
  | .ok _ r => r
  | .error _ r => r

end GraphReplica

end LiveGraph
