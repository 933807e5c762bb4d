import LiveGraph.Proofs.Graph.Geometry
import LiveGraph.Proofs.Store.Interchange

/-!
# Moved nodes

What any number of moves makes of a graph is told by a `Placement`, the new positions of the nodes that
were moved: these nodes are there, the ends of their edges with them, and nothing else has changed. One
placement after another is a placement again, so a graph that is moved about node by node is known from
where its nodes come to lie, up to the order in which the changes are noted.
-/

namespace LiveGraph

/-- New positions for some of the nodes. -/
abbrev Placement := Nat → Option Point

namespace Placement

/-- One node gets a position. -/
def single (slot : Nat) (pos : Point) : Placement := fun n => if n = slot then some pos else none

/-- What a second placement leaves of the first. -/
def andThen (first second : Placement) : Placement := fun n => (second n).or (first n)

/-- Different nodes can be placed in any order. -/
theorem single_andThen_comm {a b : Nat} (hab : a ≠ b) (p q : Point) :
    (single a p).andThen (single b q) = (single b q).andThen (single a p) := by
  funext n
  unfold andThen single
  by_cases hna : n = a
  · subst hna
    simp [hab]
  · simp [hna]

end Placement

/-- The record of a node at its new position. -/
def NodeRecord.placed (r : NodeRecord) (pos : Option Point) : NodeRecord :=
  { r with pos := pos.getD r.pos }

/-- The record of an edge between the new positions of its ends. -/
def EdgeRecord.placed (r : EdgeRecord) (ends : EdgeData) (place : Placement) : EdgeRecord :=
  { r with
    source := (place ends.source).getD r.source
    target := (place ends.target).getD r.target }

theorem NodeRecord.placed_placed (r : NodeRecord) (first second : Option Point) :
    (r.placed first).placed second = r.placed (second.or first) := by
  cases second <;> rfl

theorem EdgeRecord.placed_placed (r : EdgeRecord) (ends : EdgeData) (first second : Placement) :
    (r.placed ends first).placed ends second = r.placed ends (first.andThen second) := by
  unfold placed Placement.andThen
  cases second ends.source <;> cases second ends.target <;> rfl

/-- An edge is dragged by the one node that is placed. -/
theorem EdgeRecord.placed_single (r : EdgeRecord) (ends : EdgeData) (slot : Nat) (pos : Point) :
    r.placed ends (.single slot pos) = r.dragged ends slot pos := by
  unfold placed dragged Placement.single
  by_cases hs : ends.source = slot <;> by_cases ht : ends.target = slot <;> simp [hs, ht]

namespace GraphData

/-! ## Placements -/

/-- An end of the edge is placed. -/
def Drags (d : GraphData) (place : Placement) (e : Nat) : Prop :=
  d.edges.isLive e = true ∧ ((place (d.edges.dataAt e).source).isSome = true ∨
    (place (d.edges.dataAt e).target).isSome = true)

/-- The nodes that are placed are at their new positions and have taken the ends of their edges along.
These records are noted as changed, and nothing else is different. -/
structure Placed (d : GraphData) (place : Placement) (d' : GraphData) : Prop where
  nodes : d.nodes.Overwritten (fun n => (place n).isSome = true) d'.nodes
  edges : d.edges.Overwritten (d.Drags place) d'.edges
  node : ∀ n, n < d.nodes.capacity → d'.nodes.recordAt n = (d.nodes.recordAt n).placed (place n)
  edge : ∀ e, d.edges.isLive e = true →
    d'.edges.recordAt e = (d.edges.recordAt e).placed (d.edges.dataAt e) place
  nodeAttributes : d'.nodeAttributes = d.nodeAttributes
  edgeAttributes : d'.edgeAttributes = d.edgeAttributes

theorem Placed.topology_eq {d d' : GraphData} {place : Placement} (h : d.Placed place d') :
    d'.topology = d.topology := by
  have hnodes := topology_sameNodes d h.nodes.sameElements
  have hedges := topology_sameEdges { d with nodes := d'.nodes } h.edges.sameElements
  exact hedges.trans hnodes

/-- Placing nodes keeps the graph consistent. -/
theorem Placed.consistent {d d' : GraphData} {place : Placement} (h : d.Placed place d')
    (hd : d.Consistent) : d'.Consistent :=
  ⟨h.nodes.wellFormed, h.edges.wellFormed, by rw [h.topology_eq]; exact hd.linked⟩

/-- Nothing is placed. -/
theorem Consistent.placed_nothing {d : GraphData} (h : d.Consistent) :
    d.Placed (fun _ => none) d where
  nodes := (Store.Overwritten.refl h.nodes).congr (by simp)
  edges := (Store.Overwritten.refl h.edges).congr (by simp [Drags])
  node _ _ := rfl
  edge _ _ := rfl
  nodeAttributes := rfl
  edgeAttributes := rfl

/-- Nodes can be placed again. -/
theorem Placed.andThen {d d₁ d₂ : GraphData} {first second : Placement} (h : d.Placed first d₁)
    (h' : d₁.Placed second d₂) : d.Placed (first.andThen second) d₂ where
  nodes := by
    refine (h.nodes.trans h'.nodes).congr fun n => ?_
    rw [Placement.andThen, Option.isSome_or, Bool.or_eq_true, or_comm]
  edges := by
    refine (h.edges.trans h'.edges).congr fun e => ?_
    unfold Drags Placement.andThen
    rw [h.edges.live, h.edges.sameElements.data, Option.isSome_or, Option.isSome_or, Bool.or_eq_true,
      Bool.or_eq_true]
    grind
  node n hn := by
    have hn₁ : n < d₁.nodes.capacity := by
      rw [h.nodes.capacity]
      exact hn
    rw [h'.node n hn₁, h.node n hn, NodeRecord.placed_placed]
    rfl
  edge e he := by
    have he₁ : d₁.edges.isLive e = true := (h.edges.live e).trans he
    rw [h'.edge e he₁, h.edges.sameElements.data, h.edge e he, EdgeRecord.placed_placed]
  nodeAttributes := h'.nodeAttributes.trans h.nodeAttributes
  edgeAttributes := h'.edgeAttributes.trans h.edgeAttributes

/-- A live node can be moved, which places it. -/
theorem Consistent.placed_moveNode {d : GraphData} (h : d.Consistent) {slot : Nat}
    (hlive : d.nodes.isLive slot = true) (pos : Point) (events : Array Event) :
    ∃ d', GraphData.moveNode slot pos ⟨d, events⟩ = .ok () ⟨d', events⟩ ∧
      d.Placed (.single slot pos) d' := by
  obtain ⟨nodes, edges, heq, hnodes, hedges, hdragged⟩ := h.moveNode_of_live hlive pos events
  have hslot := h.node_lt hlive
  have hmem := h.linked.mem_adjacent slot hlive
  refine ⟨_, heq, ?_⟩
  constructor
  case nodes =>
    refine (hnodes.overwritten h.nodes hslot).congr fun n => ?_
    unfold Placement.single
    split <;> simp [*]
  case edges =>
    -- the edges that the node lists are those that it drags
    refine hedges.congr fun e => (hmem e).trans ?_
    unfold Drags Placement.single Topology.Meets
    simp [topology]
  case node =>
    intro n hn
    -- the node itself is at its destination, and every other where it was
    by_cases hns : n = slot
    · subst hns
      rw [hnodes.record n hlive, if_pos rfl, Placement.single, if_pos rfl]
      rfl
    · rw [hnodes.others n hn hns, Placement.single, if_neg hns]
      rfl
  case edge =>
    intro e he
    rw [hdragged e he, EdgeRecord.placed_single]
    by_cases hin : e ∈ d.topology.adjacent slot
    · rw [if_pos hin]
    · -- an edge that the node does not list ends elsewhere
      have hs : (d.edges.dataAt e).source ≠ slot := fun hs => hin ((hmem e).2 ⟨he, .inl hs⟩)
      have ht : (d.edges.dataAt e).target ≠ slot := fun ht => hin ((hmem e).2 ⟨he, .inr ht⟩)
      rw [if_neg hin, EdgeRecord.dragged, if_neg hs, if_neg ht]
  case nodeAttributes => rfl
  case edgeAttributes => rfl

/-- Placing nodes keeps the edges attached. -/
theorem Placed.attached {d d' : GraphData} {place : Placement} (h : d.Placed place d')
    (hd : d.Consistent) (ha : d.Attached) : d'.Attached := by
  intro e he'
  have he : d.edges.isLive e = true := (h.edges.live e).symm.trans he'
  have hpos : ∀ n, d.topology.Meets e n →
      (d'.nodes.recordAt n).pos = (place n).getD (d.nodes.recordAt n).pos := by
    intro n hmeets
    rw [h.node n (hd.node_lt (hd.linked.node_of_meets e he n hmeets))]
    rfl
  obtain ⟨hsource, htarget⟩ := ha e he
  unfold AttachedAt
  rw [h.edge e he, h.edges.sameElements.data, hpos (d.edges.dataAt e).source (.inl rfl),
    hpos (d.edges.dataAt e).target (.inr rfl), ← hsource, ← htarget]
  exact ⟨rfl, rfl⟩

/-! ## The order of moves -/

/-- The two graphs are the same up to the order in which they have noted their pending changes. -/
structure Interchangeable (d d' : GraphData) : Prop where
  nodes : d.nodes.Interchangeable d'.nodes
  edges : d.edges.Interchangeable d'.edges
  nodeAttributes : d'.nodeAttributes = d.nodeAttributes
  edgeAttributes : d'.edgeAttributes = d.edgeAttributes

/-- Where the nodes come to lie decides about the graph. -/
theorem Placed.interchangeable {d d₁ d₂ : GraphData} {place : Placement} (h₁ : d.Placed place d₁)
    (h₂ : d.Placed place d₂) : d₁.Interchangeable d₂ where
  nodes := h₁.nodes.interchangeable h₂.nodes fun n hn => by rw [h₁.node n hn, h₂.node n hn]
  edges := by
    refine h₁.edges.interchangeable h₂.edges fun e he => ?_
    by_cases hlive : d.edges.isLive e = true
    · rw [h₁.edge e hlive, h₂.edge e hlive]
    · have hstays : ¬ d.Drags place e := fun hdrags => hlive hdrags.1
      rw [h₁.edges.others e he hstays, h₂.edges.others e he hstays]
  nodeAttributes := h₂.nodeAttributes.trans h₁.nodeAttributes.symm
  edgeAttributes := h₂.edgeAttributes.trans h₁.edgeAttributes.symm

/-- The graph after a flush. -/
def flushed (d : GraphData) : GraphData :=
  { d with nodes := d.nodes.flushed, edges := d.edges.flushed }

/-- A flush publishes what changed in the nodes, then what changed in the edges. -/
theorem Consistent.flush_eq_flushed {d : GraphData} (h : d.Consistent) (events : Array Event) :
    GraphData.flush ⟨d, events⟩
      = .ok () ⟨d.flushed, events ++ (d.nodes.flushEvents ++ d.edges.flushEvents).toArray⟩ := by
  rw [GraphData.flush, Edit.bind_of_ok (onNodes_of_ok (h.nodes.flush_eq events)),
    onEdges_of_ok (d := { d with nodes := d.nodes.flushed }) (h.edges.flush_eq _)]
  simp [flushed]

/-- Interchangeable graphs publish the same events, and are the same after that. -/
theorem Interchangeable.flush {d d' : GraphData} (hi : d.Interchangeable d') (h : d.Consistent)
    (h' : d'.Consistent) (events : Array Event) :
    ∃ (d'' : GraphData) (batch batch' : List Event),
      GraphData.flush ⟨d, events⟩ = .ok () ⟨d'', events ++ batch.toArray⟩ ∧
      GraphData.flush ⟨d', events⟩ = .ok () ⟨d'', events ++ batch'.toArray⟩ ∧ batch.Perm batch' := by
  have hsame : d'.flushed = d.flushed := by
    unfold flushed
    rw [hi.nodes.flushed_eq h.nodes h'.nodes, hi.edges.flushed_eq h.edges h'.edges,
      hi.nodeAttributes, hi.edgeAttributes]
  have hflush := h'.flush_eq_flushed events
  rw [hsame] at hflush
  exact ⟨_, _, _, h.flush_eq_flushed events, hflush,
    (hi.nodes.flushEvents_perm h.nodes h'.nodes).append (hi.edges.flushEvents_perm h.edges h'.edges)⟩

/-- Two moves, one after the other. -/
theorem Consistent.placed_moveNode_moveNode {d : GraphData} (h : d.Consistent) {a b : Nat}
    (ha : d.nodes.isLive a = true) (hb : d.nodes.isLive b = true) (p q : Point)
    (events : Array Event) :
    ∃ d', (do GraphData.moveNode a p; GraphData.moveNode b q : GraphEdit Unit) ⟨d, events⟩
        = .ok () ⟨d', events⟩ ∧ d.Placed ((Placement.single a p).andThen (.single b q)) d' := by
  obtain ⟨d₁, hfirst, hplaced₁⟩ := h.placed_moveNode ha p events
  have hb₁ : d₁.nodes.isLive b = true := (hplaced₁.nodes.live b).trans hb
  obtain ⟨d₂, hsecond, hplaced₂⟩ := (hplaced₁.consistent h).placed_moveNode hb₁ q events
  refine ⟨d₂, ?_, hplaced₁.andThen hplaced₂⟩
  rw [Edit.bind_of_ok hfirst]
  exact hsecond

/-- After any calls on a new graph, two different nodes can be moved in either order. Bytes, side data,
free slots, attributes and pending changes are the same then, and the next flush publishes the same
events, in another order at most, and leaves the same graph. -/
theorem moves_commute {config : GraphConfig} {d₀ : GraphData} (hnew : GraphData.new config = .ok d₀)
    (calls : List Call) {a b : Nat} (hab : a ≠ b)
    (ha : (run d₀ calls).value.nodes.isLive a = true)
    (hb : (run d₀ calls).value.nodes.isLive b = true) (p q : Point) :
    ∃ d₁ d₂,
      (do moveNode a p; moveNode b q : GraphEdit Unit) (run d₀ calls)
        = .ok () ⟨d₁, (run d₀ calls).events⟩ ∧
      (do moveNode b q; moveNode a p : GraphEdit Unit) (run d₀ calls)
        = .ok () ⟨d₂, (run d₀ calls).events⟩ ∧
      d₁.Interchangeable d₂ ∧
      ∃ (d' : GraphData) (batch batch' : List Event),
        flush ⟨d₁, (run d₀ calls).events⟩ = .ok () ⟨d', (run d₀ calls).events ++ batch.toArray⟩ ∧
        flush ⟨d₂, (run d₀ calls).events⟩ = .ok () ⟨d', (run d₀ calls).events ++ batch'.toArray⟩ ∧
        batch.Perm batch' := by
  have h := consistent_run (consistent_new hnew) calls
  obtain ⟨d₁, hforth, hplaced₁⟩ := h.placed_moveNode_moveNode ha hb p q (run d₀ calls).events
  obtain ⟨d₂, hback, hplaced₂⟩ := h.placed_moveNode_moveNode hb ha q p (run d₀ calls).events
  rw [← Placement.single_andThen_comm hab] at hplaced₂
  have hi := hplaced₁.interchangeable hplaced₂
  exact ⟨d₁, d₂, hforth, hback, hi, hi.flush (hplaced₁.consistent h) (hplaced₂.consistent h) _⟩

/-- Two nodes with two edges between them, and a loop at one of them. -/
def entangled : List Call :=
  [.addNode default, .addNode default, .addEdge 0 1 default default, .addEdge 1 0 default default,
   .addEdge 0 0 default default]

/-- The two nodes drag two edges from both ends, and one of them drags a loop. -/
theorem moves_commute_entangled : ∃ d₀, GraphData.new {} = .ok d₀ ∧ ∃ d₁ d₂,
    (do moveNode 0 ⟨⟨1⟩, ⟨2⟩⟩; moveNode 1 ⟨⟨3⟩, ⟨4⟩⟩ : GraphEdit Unit) (run d₀ entangled)
      = .ok () ⟨d₁, (run d₀ entangled).events⟩ ∧
    (do moveNode 1 ⟨⟨3⟩, ⟨4⟩⟩; moveNode 0 ⟨⟨1⟩, ⟨2⟩⟩ : GraphEdit Unit) (run d₀ entangled)
      = .ok () ⟨d₂, (run d₀ entangled).events⟩ ∧ d₁.Interchangeable d₂ := by
  obtain ⟨d₀, hnew⟩ : ∃ d₀, GraphData.new {} = .ok d₀ := ⟨_, rfl⟩
  have hlive : (run d₀ entangled).value.nodes.isLive 0 = true ∧
      (run d₀ entangled).value.nodes.isLive 1 = true := by
    cases hnew
    decide +kernel
  obtain ⟨d₁, d₂, hforth, hback, hi, -⟩ :=
    moves_commute hnew entangled (by decide) hlive.1 hlive.2 ⟨⟨1⟩, ⟨2⟩⟩ ⟨⟨3⟩, ⟨4⟩⟩
  exact ⟨d₀, hnew, d₁, d₂, hforth, hback, hi⟩

end GraphData

end LiveGraph
