import LiveGraph.Emitter.Network
import LiveGraph.Graph.Basic

/-!
# The channel of a graph

Each store of a graph has an emitter, and so has its lock. All three forward to one more emitter, and
a receiver is attached to that one. Whichever of the three publishes an event, it arrives once, behind
the events that still wait.
-/

namespace LiveGraph

/-- The emitters of a graph, known by their handles, and the receiver of what they publish. -/
structure Channel where
  network : Network Event
  nodes : Nat
  edges : Nat
  status : Nat
  receiver : Nat

namespace Channel

/-- A new channel with a receiver attached. -/
def connect : Except EmitterError Channel := do
  let (events, n) := ({} : Network Event).new
  let (nodes, n) := n.new
  let (edges, n) := n.new
  let (status, n) := n.new
  let n := n.forward nodes events id
  let n := n.forward edges events id
  let n := n.forward status events id
  let (receiver, network) ← n.attach events
  return { network, nodes, edges, status, receiver }

/-- The emitter that an event is published on. -/
def source (c : Channel) (e : Event) : Nat :=
  match e.kind? with
  | some .node => c.nodes
  | some .edge => c.edges
  | none => c.status

/-- Publishes an event. -/
def emit (c : Channel) (e : Event) : Channel :=
  { c with network := (c.network.emit (c.source e) e).2 }

/-- The events that wait for the receiver, oldest first. -/
def queued (c : Channel) : List Event := (c.network.receivers.getD c.receiver {}).queued.toList

/-- Takes the oldest event that waits. -/
def take? (c : Channel) : Option (Event × Channel) :=
  match c.queued with
  | [] => none
  | e :: rest =>
    let receivers := c.network.receivers.modify c.receiver ({ · with queued := rest.toArray })
    some (e, { c with network := { c.network with receivers } })

/-- The channel in which the given events wait. -/
def holding (events : List Event) : Channel where
  network :=
    { emitters := #[
        { sink := some (.queue 0) },
        { observers := [.forward 0 id] },
        { observers := [.forward 0 id] },
        { observers := [.forward 0 id] }]
      handles := #[0, 1, 2, 3]
      receivers := #[{ queued := events.toArray }] }
  nodes := 1
  edges := 2
  status := 3
  receiver := 0

/-- A new channel holds nothing. -/
theorem connect_eq : connect = .ok (holding []) := rfl

@[simp] theorem queued_holding (events : List Event) : (holding events).queued = events := rfl

/-- The oldest event is taken first. -/
theorem take?_holding (e : Event) (events : List Event) :
    (holding (e :: events)).take? = some (e, holding events) := rfl

/-- A published event waits behind the others, whichever emitter it comes from. -/
theorem emit_holding (events : List Event) (e : Event) :
    (holding events).emit e = holding (events ++ [e]) := by
  have hpush : ∀ i : Nat, i = 1 ∨ i = 2 ∨ i = 3 → ((holding events).network.emit i e).2
      = { (holding events).network with receivers := #[{ queued := events.toArray.push e }] } := by
    rintro i (rfl | rfl | rfl)
    · rfl
    · rfl
    · rfl
  have hsource : (holding events).source e = 1 ∨ (holding events).source e = 2 ∨
      (holding events).source e = 3 := by
    rw [source]
    split
    · exact .inl rfl
    · exact .inr (.inl rfl)
    · exact .inr (.inr rfl)
  rw [emit, hpush _ hsource, List.push_toArray]
  rfl

/-- Events that are sent stand behind those that wait. -/
theorem foldl_emit_holding (events new : List Event) :
    new.foldl emit (holding events) = holding (events ++ new) := by
  -- on the new events, since each changes what is held
  induction new generalizing events with
  | nil => rw [List.foldl_nil, List.append_nil]
  | cons e new ih => rw [List.foldl_cons, emit_holding, ih, List.append_assoc, List.singleton_append]

/-! ## The receiver of a graph -/

section

variable {ω α : Type} (env : Surroundings ω)

/-- An event that goes out reaches the receiver of a graph as it reaches the one behind the emitters,
whoever else hears it. -/
theorem outbox_deliver {w : World ω} {waiting : List Event}
    (h : w.graph.outbox = some waiting.toArray) (e : Event) :
    (w.deliver env e).graph.outbox = some ((holding waiting).emit e).queued.toArray := by
  have hcancel : w.graph.cancel.2.outbox = w.graph.outbox := rfl
  rw [emit_holding, queued_holding, ← List.push_toArray, World.deliver]
  dsimp only
  split
  · rw [hcancel, h]
    rfl
  · rw [h]
    rfl

/-- What is delivered to the receiver of a graph stands behind what waits there. -/
theorem outbox_foldl_deliver {w : World ω} {waiting : List Event}
    (h : w.graph.outbox = some waiting.toArray) (events : List Event) :
    (events.foldl (World.deliver env) w).graph.outbox
      = some (events.foldl emit (holding waiting)).queued.toArray := by
  induction events generalizing w waiting with
  | nil => exact h
  | cons e events ih =>
    have hnext := outbox_deliver env h e
    rw [emit_holding, queued_holding] at hnext
    rw [List.foldl_cons, List.foldl_cons, emit_holding, ih hnext]

/-- What an edit leaves for the receiver of a graph is what the emitters hand over, also when the
edit fails. -/
theorem outbox_edit (act : GraphEdit α) {w w' : World ω} {waiting : List Event}
    (h : w.graph.outbox = some waiting.toArray)
    (hedit : (∃ a, World.edit env act w = .ok a w') ∨ ∃ e, World.edit env act w = .error e w') :
    w'.graph.outbox = some
      ((act.perform w.graph.data).2.2.toList.foldl emit (holding waiting)).queued.toArray := by
  obtain ⟨⟨name, data, lock, observers, outbox⟩, around⟩ := w
  have hedited : (⟨⟨name, (act.perform data).2.1, lock, observers, outbox⟩, around⟩ :
      World ω).graph.outbox = some waiting.toArray := h
  have hreach := outbox_foldl_deliver env hedited (act.perform data).2.2.toList
  rw [Array.foldl_toList] at hreach
  rw [World.edit] at hedit
  -- the events go out before the outcome is looked at
  generalize act.perform data = result at hedit hreach ⊢
  obtain ⟨outcome, data', events⟩ := result
  cases outcome with
  | ok a =>
    rcases hedit with ⟨b, hok⟩ | ⟨e, herror⟩
    · cases hok
      exact hreach
    · cases herror
  | error e =>
    rcases hedit with ⟨b, hok⟩ | ⟨e, herror⟩
    · cases hok
    · cases herror
      exact hreach

end

end Channel

end LiveGraph
