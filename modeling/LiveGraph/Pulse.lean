import LiveGraph.Animation
import LiveGraph.Graph.Data

/-!
# Pulses

A pulse highlights a node and lets its radius grow to one and a half and shrink back. It belongs to
the node and not to the slot: once the node is gone the pulse stops, and a node that takes the slot
later is left alone.
-/

namespace LiveGraph

/-- A pulse of a node. -/
structure Pulse where
  slot : Nat
  /-- The generation of the node that pulses. -/
  generation : UInt64
  /-- The radius before the pulse. -/
  base : Single
  duration : Double

namespace Pulse

/-- The pulse of the node in a slot, if there is one. -/
def of? (d : GraphData) (slot : Nat) (duration : Double) : Option Pulse :=
  if d.nodes.isLive slot then
    match d.nodes.data slot, d.nodes.record slot with
    | .ok node, .ok r => some { slot, generation := node.generation, base := r.radius, duration }
    | _, _ => none
  else none

/-- The slot still holds the node that pulses. -/
def sameNode (p : Pulse) (d : GraphData) : Bool :=
  d.nodes.isLive p.slot &&
    match d.nodes.data p.slot with
    | .ok node => node.generation == p.generation
    | .error _ => false

/-- Half a turn. -/
def halfTurn : Double := ⟨0x400921fb54442d18⟩

/-- The factor of the radius at a time. -/
def factor (p : Pulse) (time : Double) : Single :=
  .one + ⟨0x3f000000⟩ * Single.ofDouble (halfTurn * time / p.duration).sin

/-- Makes an edit if the node is still there; answers whether it was made. -/
def attempt (p : Pulse) (edit : GraphEdit Unit) (t : Tracked GraphData) :
    Bool × Tracked GraphData :=
  if p.sameNode t.value then
    match edit t with
    | .ok _ t => (true, t)
    | .error _ t => (false, t)
  else (false, t)

/-- The node at a time of the pulse. -/
def display (p : Pulse) (time : Double) : GraphEdit Unit :=
  GraphData.updateNode p.slot fun r =>
    Record.setHighlighted { r with radius := p.base * p.factor time } true

/-- Pulses edit graph data. -/
def choreography : Choreography (Tracked GraphData) Pulse where
  progress p t time :=
    let (made, t) := p.attempt (p.display time) t
    (made, p, t)
  finish p t := (p.attempt (GraphData.setHighlighted .node p.slot false) t).2

/-- Advances pulses, and answers those that still run. -/
def tick (pulses : AnimationSet Pulse) (dt : Double) : GraphEdit (AnimationSet Pulse) := fun t =>
  let (pulses, t) := pulses.tick choreography t dt
  .ok pulses t

end Pulse

end LiveGraph
