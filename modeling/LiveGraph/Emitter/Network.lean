import LiveGraph.Emitter.Error

/-!
# Networks of emitters

An emitter hands each value to its observers in the order in which they were added, then to its
sink. An observer either listens under a label or forwards the value, transformed, to another
emitter. A sink listens under a label, or queues values for a receiver until the receiver is gone.

Emitters are known by handles. A handle may stand for the same emitter as another one, and then both
see the same subscriptions.
-/

namespace LiveGraph

/-- What an emitter calls for every value. -/
inductive Observer (α : Type)
  /-- Listens under a label. -/
  | listener (label : String)
  /-- Forwards the value, transformed, to the emitter with the given number. -/
  | forward (target : Nat) (f : α → α)

/-- What an emitter hands a value to in the end. -/
inductive Sink
  /-- Listens under a label. -/
  | listener (label : String)
  /-- Queues for the receiver with the given number. -/
  | queue (receiver : Nat)
deriving DecidableEq, Repr

/-- The subscriptions of one emitter. -/
structure Emitter (α : Type) where
  /-- In the order in which they were added. -/
  observers : List (Observer α) := []
  sink : Option Sink := none

/-- One value handed over. -/
inductive Delivery (α : Type)
  /-- To a listener. -/
  | listener (label : String) (value : α)
  /-- To a receiver's queue. -/
  | queue (receiver : Nat) (value : α)
deriving DecidableEq, Repr

/-- The delivery that a sink makes of a value. -/
def Sink.deliver {α : Type} (v : α) : Sink → Delivery α
  | listener label => .listener label v
  | queue receiver => .queue receiver v

/-- The deliveries that an observer makes of a value, where `next` says what an emitter makes of one. -/
def Observer.deliver {α : Type} (next : Nat → α → List (Delivery α)) (v : α) :
    Observer α → List (Delivery α)
  | listener label => [.listener label v]
  | forward target f => next target (f v)

/-- The end of a queue. -/
structure Receiver (α : Type) where
  /-- The values not yet taken, oldest first. -/
  queued : Array α := #[]
  /-- The receiver is gone, and values for it are discarded. -/
  dropped : Bool := false

/-- Emitters, the handles that stand for them, and receivers. -/
structure Network (α : Type) where
  emitters : Array (Emitter α) := #[]
  /-- The emitter that a handle stands for. -/
  handles : Array Nat := #[]
  receivers : Array (Receiver α) := #[]

namespace Network

variable {α : Type}

/-- The number of the emitter that a handle stands for. -/
def emitterOf (n : Network α) (handle : Nat) : Nat := n.handles.getD handle 0

/-- The emitter that a handle stands for. -/
def emitter (n : Network α) (handle : Nat) : Emitter α := n.emitters.getD (n.emitterOf handle) {}

/-! ## Building -/

/-- A further emitter; answers its handle. -/
def new (n : Network α) : Nat × Network α :=
  (n.handles.size,
    { n with emitters := n.emitters.push {}, handles := n.handles.push n.emitters.size })

/-- A second handle for an emitter. -/
def clone (n : Network α) (handle : Nat) : Nat × Network α :=
  (n.handles.size, { n with handles := n.handles.push (n.emitterOf handle) })

/-- The network with an emitter changed. -/
def modifyEmitter (n : Network α) (handle : Nat) (f : Emitter α → Emitter α) : Network α :=
  { n with emitters := n.emitters.modify (n.emitterOf handle) f }

/-- Adds an observer. -/
def observe (n : Network α) (handle : Nat) (o : Observer α) : Network α :=
  n.modifyEmitter handle fun e => { e with observers := e.observers ++ [o] }

/-- Adds a listener. -/
def listen (n : Network α) (handle : Nat) (label : String) : Network α :=
  n.observe handle (.listener label)

/-- Forwards the values of one emitter to another, transformed. -/
def forward (n : Network α) (handle target : Nat) (f : α → α) : Network α :=
  n.observe handle (.forward (n.emitterOf target) f)

/-- A further emitter that gets the values of a given one, transformed. -/
def map (n : Network α) (handle : Nat) (f : α → α) : Nat × Network α :=
  let (derived, n) := n.new
  (derived, n.forward handle derived f)

/-- Sets the sink of an emitter, which must not have one. -/
def setSink (n : Network α) (handle : Nat) (s : Sink) : Except EmitterError (Network α) :=
  if (n.emitter handle).sink.isSome then .error .sinkTaken
  else .ok (n.modifyEmitter handle ({ · with sink := some s }))

/-- Queues the values of an emitter for a new receiver; answers its number. -/
def attach (n : Network α) (handle : Nat) : Except EmitterError (Nat × Network α) := do
  let n' ← n.setSink handle (.queue n.receivers.size)
  return (n.receivers.size, { n' with receivers := n'.receivers.push {} })

/-! ## Emitting -/

/-- What an emitter delivers, following forwards through at most `depth` emitters. -/
def trace (n : Network α) : (depth : Nat) → (emitter : Nat) → α → List (Delivery α)
  | 0, _, _ => []
  | depth + 1, i, v =>
    let e := n.emitters.getD i {}
    e.observers.flatMap (Observer.deliver (n.trace depth) v) ++
      (e.sink.map (Sink.deliver v)).toList

/-- What an emitter delivers. A path of forwards that visits no emitter twice is no longer than the
network has emitters. -/
def deliveries (n : Network α) (handle : Nat) (v : α) : List (Delivery α) :=
  n.trace n.emitters.size (n.emitterOf handle) v

/-- What an emitter delivers of a value that is only lent to it: its sink keeps a copy. Forwards make
values of their own, so the emitters behind them deliver as ever. -/
def deliveriesLent (n : Network α) (copy : α → α) (handle : Nat) (v : α) : List (Delivery α) :=
  let e := n.emitter handle
  e.observers.flatMap (Observer.deliver (n.trace (n.emitters.size - 1)) v) ++
    (e.sink.map (Sink.deliver (copy v))).toList

/-- The receivers after one delivery. -/
def receive (receivers : Array (Receiver α)) : Delivery α → Array (Receiver α)
  | .listener _ _ => receivers
  | .queue i v =>
    receivers.modify i fun r => if r.dropped then r else { r with queued := r.queued.push v }

/-- Makes deliveries; answers what listeners heard, in order. -/
def hand (n : Network α) (ds : List (Delivery α)) : List (String × α) × Network α :=
  (ds.filterMap fun
    | .listener label v => some (label, v)
    | .queue _ _ => none, { n with receivers := ds.foldl receive n.receivers })

/-- Emits a value; answers what listeners heard, in order. -/
def emit (n : Network α) (handle : Nat) (v : α) : List (String × α) × Network α :=
  n.hand (n.deliveries handle v)

/-- Emits a value that is only lent; answers what listeners heard, in order. -/
def emitLent (n : Network α) (copy : α → α) (handle : Nat) (v : α) :
    List (String × α) × Network α :=
  n.hand (n.deliveriesLent copy handle v)

/-! ## Receiving -/

/-- Takes all queued values of a receiver, unless it is gone. -/
def drain (n : Network α) (receiver : Nat) : Option (Array α × Network α) :=
  let r := n.receivers.getD receiver {}
  if r.dropped then none
  else
    let receivers := n.receivers.modify receiver ({ · with queued := #[] })
    some (r.queued, { n with receivers })

/-- Drops a receiver; its queue goes with it. -/
def dropReceiver (n : Network α) (receiver : Nat) : Network α :=
  { n with receivers := n.receivers.modify receiver fun _ => { dropped := true } }

/-- Drops all emitters with their handles, so that handles start anew. A receiver that is still
there then finds its channel closed, because only sinks feed it. -/
def dropEmitters (n : Network α) : List (Option Bool) × Network α :=
  (n.receivers.toList.map fun r => if r.dropped then none else some true,
    { n with emitters := #[], handles := #[] })

/-- The emitter as it stands in messages. -/
def describe (n : Network α) (handle : Nat) : String :=
  let e := n.emitter handle
  s!"Emitter \x7b observers: {e.observers.length}, has_sink: {e.sink.isSome} \x7d"

end Network

end LiveGraph
