import LiveGraph.Snapshot

/-!
# Events

What a graph tells its consumers: a record array was replaced, some of its slots changed, a long
task started or ended. Updates carry a snapshot to read the slots from.
-/

namespace LiveGraph

/-- What a consumer is told. -/
inductive Event
  /-- The array was replaced and now has `capacity` slots. -/
  | replaced (kind : Kind) (capacity : Nat) (buffer : Snapshot)
  /-- The slots `start .. stop` changed. -/
  | range (kind : Kind) (start stop : Nat) (buffer : Snapshot)
  /-- One slot changed. -/
  | slot (kind : Kind) (slot : Nat) (buffer : Snapshot)
  /-- The task that runs from now on, if any. -/
  | task (name : Option String)
deriving DecidableEq, Repr

namespace Event

/-- The record array that the event is about. -/
def kind? : Event → Option Kind
  | replaced k _ _ | range k _ _ _ | slot k _ _ => some k
  | task _ => none

/-- The snapshot that the event carries. -/
def buffer? : Event → Option Snapshot
  | replaced _ _ b | range _ _ _ b | slot _ _ b => some b
  | task _ => none

/-- The slots to read again, first and end; there is no slot behind the last number. -/
def slots? : Event → Except Fault (Option (Nat × Nat))
  | replaced _ capacity _ => .ok (some (0, capacity))
  | range _ start stop _ => .ok (some (start, stop))
  | slot _ s _ =>
    match addSize? s 1 with
    | some stop => .ok (some (s, stop))
    | none => .error .overflow
  | task _ => .ok none

end Event

end LiveGraph
