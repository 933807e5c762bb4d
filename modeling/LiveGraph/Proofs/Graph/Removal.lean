import LiveGraph.Proofs.Graph.Ownership
import LiveGraph.Proofs.Store.Flat

/-!
# What goes with a node

Removing a node removes the edges that meet it, each of them once, also a loop, which the node has at both
ends. The edges are removed one after the other while the node's own list is empty already, and each
removal strikes an edge from the lists of its ends. In the end exactly the node and its edges are gone:
the free lists have grown by their slots, the other nodes have lost exactly these edges from their lists,
and the records, the data and the attributes of all other elements are what they were.
-/

namespace LiveGraph

namespace Store

variable {ρ τ : Type} [Record ρ]

/-- Slots that were not free are put on the free list one after the other. -/
theorem released_of_nodup {slots free : List Nat} (hnodup : slots.Nodup) (hin : ∀ x ∈ slots, x ∉ free) :
    released free slots = slots.reverse ++ free := by
  unfold released
  induction slots generalizing free with
  | nil => rfl
  | cons x slots ih =>
    obtain ⟨hx, hnodup⟩ := List.nodup_cons.1 hnodup
    have hrest : ∀ y ∈ slots, y ∉ x :: free := by
      intro y hy
      rw [List.mem_cons, not_or]
      exact ⟨fun heq => hx (heq ▸ hy), hin y (List.mem_cons_of_mem x hy)⟩
    rw [List.foldl_cons, if_neg (hin x List.mem_cons_self), ih hnodup hrest]
    simp

/-- The bytes of a slot are those of its record. -/
theorem WellFormed.slotBytes_eq_encode {s : Store ρ τ} (h : s.WellFormed) {x : Nat}
    (hx : x < s.capacity) : s.slotBytes x = .ok (Record.encode (s.recordAt x)).toArray := by
  have hsize : (s.image.window x (x + 1)).toList.length = Record.size ρ :=
    Snapshot.size_window_slot s.image x
  rw [h.slotBytes_eq hx, recordAt, Record.encode_decode _ hsize]

/-- Some slots of a store are no longer live: they are on top of the free list, the last one first, the
count is lower by their number, and the bytes of all other live slots are the same. -/
structure Deleted (s : Store ρ τ) (slots : List Nat) (s' : Store ρ τ) : Prop where
  live : ∀ x, s'.isLive x = true ↔ s.isLive x = true ∧ x ∉ slots
  free : s'.free = slots.reverse ++ s.free
  count : s'.liveCount + slots.length = s.liveCount
  bytes : ∀ x, s'.isLive x = true →
    ∃ bytes, s.slotBytes x = .ok bytes ∧ s'.slotBytes x = .ok bytes

/-- When slots are deleted, the others keep their records. -/
theorem WellFormed.deleted {s s' : Store ρ τ} {slots : List Nat} (h : s.WellFormed) (h' : s'.WellFormed)
    (hnodup : slots.Nodup) (hslots : ∀ x ∈ slots, s.isLive x = true) (hlen : s'.len = s.len)
    (hfree : s'.free = released s.free slots)
    (hlive : ∀ x, s'.isLive x = true ↔ s.isLive x = true ∧ x ∉ slots)
    (hrecord : ∀ x, s'.isLive x = true → s'.recordAt x = s.recordAt x) : Deleted s slots s' := by
  have hin : ∀ x ∈ slots, x ∉ s.free := by
    intro x hx hmem
    have hused := ((h.isLive_iff x).1 (hslots x hx)).2.1
    rw [(h.freeList.mem_free x).1 hmem] at hused
    cases hused
  rw [released_of_nodup hnodup hin] at hfree
  refine ⟨hlive, hfree, ?_, fun x hx => ?_⟩
  · have hle := h'.length_free_le
    unfold liveCount
    rw [hfree, List.length_append, List.length_reverse] at hle ⊢
    omega
  · have hlt := h.lt_of_isLive ((hlive x).1 hx).1
    rw [h.slotBytes_eq_encode hlt, h'.slotBytes_eq_encode (h'.lt_of_isLive hx), hrecord x hx]
    exact ⟨_, rfl, rfl⟩

end Store

namespace GraphData

/-- A node and the edges that meet it are gone, and nothing else. -/
structure NodeGone (d : GraphData) (n : Nat) (incident : List Nat) (d' : GraphData) : Prop where
  /-- Every edge that starts or ends at the node is among those that are gone. -/
  mem_incident : ∀ e, e ∈ incident ↔ d.edges.isLive e = true ∧
    ∃ ends, d.edges.data e = .ok ends ∧ (ends.source = n ∨ ends.target = n)
  /-- None of them goes twice. -/
  nodup : incident.Nodup
  nodes : d.nodes.Deleted [n] d'.nodes
  edges : d.edges.Deleted incident d'.edges
  /-- The other nodes have the edges struck from their lists, and no more. -/
  adjacent : ∀ m, d'.nodes.isLive m = true → ∃ data, d.nodes.data m = .ok data ∧
    d'.nodes.data m = .ok { data with adjacent := data.adjacent.filter (· ∉ incident) }
  /-- The other edges have the same ends. -/
  ends : ∀ e, d'.edges.isLive e = true → ∃ ends, d.edges.data e = .ok ends ∧ d'.edges.data e = .ok ends
  /-- The other elements have the same values in all tables. -/
  values : ∀ k x, d'.isLive k x = true →
    ∀ name, (d'.attributes k).value? name x = (d.attributes k).value? name x

/-- A live node can always be removed. The edges that go with it are the ones that it lists. -/
theorem Consistent.nodeGone {d : GraphData} (h : d.Consistent) {n : Nat}
    (hn : d.nodes.isLive n = true) (events : Array Event) :
    ∃ d' incident, GraphData.removeNode n ⟨d, events⟩ = .ok () ⟨d', events⟩ ∧ NodeGone d n incident d' := by
  obtain ⟨d₁, nodes, heq, hdropped, herased, hlisted, h'⟩ := h.removeNode_of_live hn events
  have hmem := h.linked.mem_adjacent n hn
  have hlive : ∀ x, nodes.isLive x = true ↔ d.nodes.isLive x = true ∧ x ∉ [n] := by
    intro x
    rw [herased.live, hdropped.nodes.live]
  have hends : ∀ e, d.edges.isLive e = true → d.edges.data e = .ok (d.edges.dataAt e) :=
    fun e he => h.edges.data_eq (h.edge_lt he)
  refine ⟨_, (d.nodes.dataAt n).adjacent, heq, ?_⟩
  constructor
  case mem_incident =>
    intro e
    refine (hmem e).trans (and_congr_right fun he => ?_)
    rw [hends e he]
    simp [Topology.Meets, topology]
  case nodup => exact h.linked.nodup n
  case nodes =>
    -- the lists of the nodes change before the node goes, which leaves its store as it was otherwise
    have hfree : nodes.free = Store.released d.nodes.free [n] := by
      rw [herased.free, hdropped.nodes.free]
    refine h.nodes.deleted h'.nodes (by simp) (by simpa using hn)
      (herased.len.trans hdropped.nodes.len) hfree hlive fun x hx => ?_
    rw [herased.record x hx, hdropped.nodes.record]
  case edges =>
    refine h.edges.deleted h'.edges (h.linked.nodup n) (fun e he => ((hmem e).1 he).1)
      hdropped.edges.len hdropped.edges.free hdropped.edges.live hdropped.edges.record
  case adjacent =>
    intro m hm
    obtain ⟨hold, hne⟩ := (hlive m).1 hm
    refine ⟨_, h.nodes.data_eq (h.node_lt hold), ?_⟩
    have hgeneration : (nodes.dataAt m).generation = (d.nodes.dataAt m).generation := by
      rw [herased.data, hdropped.nodes.generation]
    have hadjacent := hlisted m hold (by simpa using hne)
    rw [h'.nodes.data_eq (h'.nodes.lt_of_isLive hm), ← hadjacent, ← hgeneration]
  case ends =>
    intro e he
    have hold := ((hdropped.edges.live e).1 he).1
    refine ⟨_, hends e hold, ?_⟩
    rw [h'.edges.data_eq (h'.edges.lt_of_isLive he), hdropped.edges.data]
  case values =>
    intro k x hx name
    cases k with
    | node =>
      have hne : x ≠ n := by simpa using ((hlive x).1 hx).2
      show (d₁.nodeAttributes.clearSlot n).value? name x = d.nodeAttributes.value? name x
      rw [AttributeSet.value?_clearSlot, if_neg hne, hdropped.nodeAttributes]
    -- only the incident edges lose their values, and they are gone
    | edge =>
      show d₁.edgeAttributes.value? name x = d.edgeAttributes.value? name x
      rw [hdropped.edgeAttributes]
      exact AttributeSet.value?_foldl_clearSlot ((hdropped.edges.live x).1 hx).2 _ name

/-- On every graph that calls can lead to, a live node can be removed, without events; then the node and
the edges that meet it are gone, and nothing else. -/
theorem removeNode_takes_edges {config : GraphConfig} {d₀ : GraphData}
    (hnew : GraphData.new config = .ok d₀) (calls : List Call) {n : Nat}
    (hn : (run d₀ calls).value.nodes.isLive n = true) :
    ∃ d' incident, removeNode n (run d₀ calls) = .ok () ⟨d', (run d₀ calls).events⟩ ∧
      NodeGone (run d₀ calls).value n incident d' ∧
      d'.nodeCount + 1 = (run d₀ calls).value.nodeCount ∧
      d'.edgeCount + incident.length = (run d₀ calls).value.edgeCount := by
  have h := consistent_run (consistent_new hnew) calls
  obtain ⟨d', incident, heq, hgone⟩ := h.nodeGone hn (run d₀ calls).events
  exact ⟨d', incident, heq, hgone, hgone.nodes.count, hgone.edges.count⟩

/-- Three nodes, with a loop at the first and edges to and from the second. -/
def loopAndReturn : List Call :=
  [.addNode default, .addNode default, .addNode default, .addEdge 0 0 default default,
   .addEdge 0 1 default default, .addEdge 1 2 default default, .addEdge 1 0 default default]

/-- Three edges go with the first node, and the edge between the others stays. -/
theorem removeNode_takes_edges_loop :
    ∃ d₀, GraphData.new { nodes := ⟨2, 1⟩, edges := ⟨2, 1⟩ } = .ok d₀ ∧
      (run d₀ loopAndReturn).value.nodes.isLive 0 = true ∧
      ∃ d' incident, removeNode 0 (run d₀ loopAndReturn)
          = .ok () ⟨d', (run d₀ loopAndReturn).events⟩ ∧
        NodeGone (run d₀ loopAndReturn).value 0 incident d' ∧
        d'.nodeCount + 1 = (run d₀ loopAndReturn).value.nodeCount ∧
        d'.edgeCount + incident.length = (run d₀ loopAndReturn).value.edgeCount := by
  have hnew : GraphData.new { nodes := ⟨2, 1⟩, edges := ⟨2, 1⟩ }
      = .ok { nodes := { config := ⟨2, 1⟩ }, edges := { config := ⟨2, 1⟩ } } := rfl
  have hlive : (run { nodes := { config := ⟨2, 1⟩ }, edges := { config := ⟨2, 1⟩ } }
      loopAndReturn).value.nodes.isLive 0 = true := by decide +kernel
  exact ⟨_, hnew, hlive, removeNode_takes_edges hnew loopAndReturn hlive⟩

end GraphData

end LiveGraph
