import LiveGraph.Graph.Data
import LiveGraph.Proofs.Graph.Topology
import LiveGraph.Proofs.Store.Elements

/-!
# Consistent graphs

The topology of graph data is read off its two stores. Every call on the graph either fails and
changes nothing, or succeeds and makes one of the changes of a topology, so node lists and edge ends
never contradict each other.
-/

namespace LiveGraph

namespace EdgeRecord

/-- The record of an edge with the ends that it has at a node drawn where the node now is. -/
def dragged (r : EdgeRecord) (ends : EdgeData) (node : Nat) (pos : Point) : EdgeRecord :=
  { r with
    source := if ends.source = node then pos else r.source
    target := if ends.target = node then pos else r.target }

/-- The ends can be drawn one after the other. -/
theorem dragged_eq (r : EdgeRecord) (ends : EdgeData) (node : Nat) (pos : Point) :
    (if ends.target = node then
      { (if ends.source = node then { r with source := pos } else r) with target := pos }
    else if ends.source = node then { r with source := pos } else r)
      = r.dragged ends node pos := by
  by_cases hs : ends.source = node <;> by_cases ht : ends.target = node <;> simp [dragged, hs, ht]

/-- Moving an end keeps the flags. -/
theorem isDeleted_dragged (r : EdgeRecord) (ends : EdgeData) (node : Nat) (pos : Point) :
    Record.isDeleted (r.dragged ends node pos) = Record.isDeleted r := rfl

/-- Drawing the ends a second time in the same place changes nothing. -/
theorem dragged_dragged (r : EdgeRecord) (ends : EdgeData) (node : Nat) (pos : Point) :
    (r.dragged ends node pos).dragged ends node pos = r.dragged ends node pos := by
  by_cases hs : ends.source = node <;> by_cases ht : ends.target = node <;> simp [dragged, hs, ht]

end EdgeRecord

namespace GraphData

variable {α : Type}

/-! ## Parts of an edit -/

/-- What an edit of the node store does, it does to the nodes of the graph, and to nothing else. -/
theorem onNodes_of_ok {act : Edit Fault NodeStore α} {d : GraphData} {nodes : NodeStore} {a : α}
    {events events' : Array Event} (h : act ⟨d.nodes, events⟩ = .ok a ⟨nodes, events'⟩) :
    onNodes act ⟨d, events⟩ = .ok a ⟨{ d with nodes }, events'⟩ := by
  simp only [onNodes, h]

/-- A fault of the node store leaves the graph as it was. -/
theorem onNodes_of_error {act : Edit Fault NodeStore α} {d : GraphData} {f : Fault}
    {events : Array Event} (h : act ⟨d.nodes, events⟩ = .error f ⟨d.nodes, events⟩) :
    onNodes act ⟨d, events⟩ = .error (.fault f) ⟨d, events⟩ := by
  simp only [onNodes, h]

/-- What an edit of the edge store does, it does to the edges of the graph, and to nothing else. -/
theorem onEdges_of_ok {act : Edit Fault EdgeStore α} {d : GraphData} {edges : EdgeStore} {a : α}
    {events events' : Array Event} (h : act ⟨d.edges, events⟩ = .ok a ⟨edges, events'⟩) :
    onEdges act ⟨d, events⟩ = .ok a ⟨{ d with edges }, events'⟩ := by
  simp only [onEdges, h]

/-- A fault of the edge store leaves the graph as it was. -/
theorem onEdges_of_error {act : Edit Fault EdgeStore α} {d : GraphData} {f : Fault}
    {events : Array Event} (h : act ⟨d.edges, events⟩ = .error f ⟨d.edges, events⟩) :
    onEdges act ⟨d, events⟩ = .error (.fault f) ⟨d, events⟩ := by
  simp only [onEdges, h]

theorem look_of_ok {f : GraphData → Except Fault α} {d : GraphData} {a : α} (h : f d = .ok a)
    (events : Array Event) : look f ⟨d, events⟩ = .ok a ⟨d, events⟩ := by
  rw [look, Edit.read_bind, h]
  rfl

/-- The check lets live nodes pass. -/
theorem checkNode_of_live {d : GraphData} {slot : Nat} (h : d.nodes.isLive slot = true)
    (events : Array Event) : checkNode slot ⟨d, events⟩ = .ok () ⟨d, events⟩ := by
  rw [checkNode, Edit.read_bind, h]
  rfl

/-- The check refuses a node that is not live, before anything is changed. -/
theorem checkNode_of_dead {d : GraphData} {slot : Nat} (h : d.nodes.isLive slot = false)
    (events : Array Event) : ∃ f, checkNode slot ⟨d, events⟩ = .error f ⟨d, events⟩ := by
  rw [checkNode, Edit.read_bind, h]
  exact ⟨_, rfl⟩

theorem checkEdge_of_live {d : GraphData} {slot : Nat} (h : d.edges.isLive slot = true)
    (events : Array Event) : checkEdge slot ⟨d, events⟩ = .ok () ⟨d, events⟩ := by
  rw [checkEdge, Edit.read_bind, h]
  rfl

theorem checkEdge_of_dead {d : GraphData} {slot : Nat} (h : d.edges.isLive slot = false)
    (events : Array Event) : ∃ f, checkEdge slot ⟨d, events⟩ = .error f ⟨d, events⟩ := by
  rw [checkEdge, Edit.read_bind, h]
  exact ⟨_, rfl⟩

/-- Whether it fails or not, an edit of the node store changes only the nodes and what is published. -/
theorem after_onNodes (act : Edit Fault NodeStore α) (d : GraphData) (events : Array Event) :
    (onNodes act).after ⟨d, events⟩ = ⟨{ d with nodes := (act.after ⟨d.nodes, events⟩).value },
      (act.after ⟨d.nodes, events⟩).events⟩ := by
  rw [Edit.after, onNodes, Edit.after]
  cases act ⟨d.nodes, events⟩ with
  | ok a t => rfl
  | error f t => rfl

theorem after_onEdges (act : Edit Fault EdgeStore α) (d : GraphData) (events : Array Event) :
    (onEdges act).after ⟨d, events⟩ = ⟨{ d with edges := (act.after ⟨d.edges, events⟩).value },
      (act.after ⟨d.edges, events⟩).events⟩ := by
  rw [Edit.after, onEdges, Edit.after]
  cases act ⟨d.edges, events⟩ with
  | ok a t => rfl
  | error f t => rfl

/-- Looking changes nothing, so everything outlasts it. -/
theorem preserves_look {P : Tracked GraphData → Prop} (f : GraphData → Except Fault α) :
    Edit.Preserves P (look f) := by
  refine .bind .read fun d => ?_
  cases f d with
  | ok a => exact .pure a
  | error e => exact .throw _

theorem preserves_checkNode {P : Tracked GraphData → Prop} (slot : Nat) :
    Edit.Preserves P (checkNode slot) :=
  .bind .read fun _ => .ite (.throw _) (.pure ())

theorem preserves_checkEdge {P : Tracked GraphData → Prop} (slot : Nat) :
    Edit.Preserves P (checkEdge slot) :=
  .bind .read fun _ => .ite (.throw _) (.pure ())

/-! ## The invariant -/

/-- The topology of a graph. -/
def topology (d : GraphData) : Topology where
  node n := d.nodes.isLive n = true
  edge e := d.edges.isLive e = true
  ends e := d.edges.dataAt e
  adjacent n := (d.nodes.dataAt n).adjacent

/-- The stores are well-formed, and nodes and edges fit together. -/
structure Consistent (d : GraphData) : Prop where
  nodes : d.nodes.WellFormed
  edges : d.edges.WellFormed
  linked : d.topology.Linked

/-- The call fails and changes nothing, or succeeds and leaves a consistent graph. -/
def Outcome (d : GraphData) (events : Array Event)
    (result : EStateM.Result (Failure GraphError) (Tracked GraphData) α) : Prop :=
  (∃ f, result = .error f ⟨d, events⟩) ∨ ∃ a d' events', result = .ok a ⟨d', events'⟩ ∧ Consistent d'

/-- A slot that holds a node is below the capacity. -/
theorem Consistent.node_lt {d : GraphData} (h : d.Consistent) {n : Nat} (hn : d.topology.node n) :
    n < d.nodes.capacity :=
  h.nodes.lt_of_isLive hn

theorem Consistent.edge_lt {d : GraphData} (h : d.Consistent) {e : Nat} (he : d.topology.edge e) :
    e < d.edges.capacity :=
  h.edges.lt_of_isLive he

/-- Other nodes with the same elements make the same topology. -/
theorem topology_sameNodes (d : GraphData) {nodes : NodeStore}
    (hs : d.nodes.SameElements nodes) : ({ d with nodes } : GraphData).topology = d.topology := by
  apply Topology.ext
  · funext n
    show (nodes.isLive n = true) = _
    rw [hs.live]
    rfl
  · rfl
  · rfl
  · funext n
    show (nodes.dataAt n).adjacent = _
    rw [hs.data]
    rfl

/-- A store with the same edges gives the same topology. -/
theorem topology_sameEdges (d : GraphData) {edges : EdgeStore}
    (hs : d.edges.SameElements edges) : ({ d with edges } : GraphData).topology = d.topology := by
  apply Topology.ext
  · rfl
  · funext e
    show (edges.isLive e = true) = _
    rw [hs.live]
    rfl
  · funext e
    exact hs.data e
  · rfl

/-- Consistency looks only at which nodes there are and at their lists, not at their records. -/
theorem Consistent.sameNodes {d : GraphData} (h : d.Consistent) {nodes : NodeStore}
    (hs : d.nodes.SameElements nodes) : ({ d with nodes } : GraphData).Consistent :=
  ⟨hs.wellFormed, h.edges, by rw [topology_sameNodes d hs]; exact h.linked⟩

/-- Consistency looks only at which edges there are and at their ends, not at their records. -/
theorem Consistent.sameEdges {d : GraphData} (h : d.Consistent) {edges : EdgeStore}
    (hs : d.edges.SameElements edges) : ({ d with edges } : GraphData).Consistent :=
  ⟨h.nodes, hs.wellFormed, by rw [topology_sameEdges d hs]; exact h.linked⟩

/-! ## Nodes -/

/-- Where the store hands out a slot, a node gets it. -/
theorem addNode_of_fresh {d : GraphData} {slot : Nat} {nodes₀ : NodeStore}
    {events events' : Array Event} (hadd : Store.add 1 ⟨d.nodes, events⟩ = .ok slot ⟨nodes₀, events'⟩)
    (hfresh : d.nodes.Fresh slot nodes₀) (r : NodeRecord) :
    ∃ nodes, addNode r ⟨d, events⟩ = .ok slot ⟨{ d with nodes }, events'⟩ ∧
      d.nodes.Inserted slot (Record.clearDeleted r)
        { adjacent := [], generation := (d.nodes.dataAt slot).generation + 1 } nodes := by
  obtain ⟨s₁, s₂, hmodify, hset, hins⟩ := hfresh.insert
    (fun d => { adjacent := [], generation := d.generation + 1 })
    (Record.isDeleted_clearDeleted r) events'
  rw [GraphData.addNode, Edit.bind_of_ok (onNodes_of_ok hadd),
    Edit.bind_of_ok (onNodes_of_ok (d := { d with nodes := nodes₀ }) hmodify),
    Edit.bind_of_ok (onNodes_of_ok (d := { d with nodes := s₁ }) hset)]
  exact ⟨_, rfl, hins⟩

/-- A node is not added, or gets a slot that held none. -/
theorem addNode_cases {d : GraphData} (hnodes : d.nodes.WellFormed) (r : NodeRecord)
    (events : Array Event) :
    (∃ f, addNode r ⟨d, events⟩ = .error f ⟨d, events⟩) ∨
      ∃ slot nodes events', addNode r ⟨d, events⟩ = .ok slot ⟨{ d with nodes }, events'⟩ ∧
        d.nodes.Inserted slot (Record.clearDeleted r)
          { adjacent := [], generation := (d.nodes.dataAt slot).generation + 1 } nodes := by
  rcases hnodes.add_one_cases events with ⟨f, hadd⟩ | ⟨slot, s₀, events', hadd, hfresh⟩
  · rw [GraphData.addNode, Edit.bind_of_error (onNodes_of_error hadd)]
    exact .inl ⟨_, rfl⟩
  · obtain ⟨nodes, heq, hins⟩ := addNode_of_fresh hadd hfresh r
    exact .inr ⟨slot, nodes, events', heq, hins⟩

/-- A new node has no edges, and no edge ends at it. -/
theorem Consistent.addNode {d : GraphData} (h : d.Consistent) (r : NodeRecord)
    (events : Array Event) : Outcome d events (addNode r ⟨d, events⟩) := by
  rcases addNode_cases h.nodes r events with ⟨f, heq⟩ | ⟨slot, nodes, events', heq, hins⟩
  · exact .inl ⟨f, heq⟩
  -- in the topology, one more node with an empty list
  · have htop : ({ d with nodes } : GraphData).topology = d.topology.insertNode slot := by
      apply Topology.ext
      · funext n
        exact propext (hins.live n)
      · rfl
      · rfl
      · funext n
        show (nodes.dataAt n).adjacent = if n = slot then [] else (d.nodes.dataAt n).adjacent
        rw [hins.data]
        split
        · rfl
        · rfl
    have hdead : ¬ d.topology.node slot := by
      show ¬ d.nodes.isLive slot = true
      rw [hins.dead]
      exact Bool.false_ne_true
    refine .inr ⟨_, _, _, heq, hins.wellFormed, h.edges, ?_⟩
    exact htop ▸ h.linked.insertNode hdead

/-- A node is rewritten: its record is replaced by one that is not marked as deleted. -/
theorem Consistent.rewriteNode {d : GraphData} (h : d.Consistent) {slot : Nat} {r : NodeRecord}
    (hlive : d.nodes.isLive slot = true) (hr : Record.isDeleted r = false) (events : Array Event) :
    ∃ nodes, onNodes (Store.set slot (some r)) ⟨d, events⟩ = .ok () ⟨{ d with nodes }, events⟩ ∧
      d.nodes.Rewritten slot r nodes := by
  obtain ⟨nodes, hset, hrewritten⟩ := h.nodes.rewrite hlive hr events
  exact ⟨nodes, onNodes_of_ok hset, hrewritten⟩

theorem Consistent.rewriteEdge {d : GraphData} (h : d.Consistent) {slot : Nat} {r : EdgeRecord}
    (hlive : d.edges.isLive slot = true) (hr : Record.isDeleted r = false) (events : Array Event) :
    ∃ edges, onEdges (Store.set slot (some r)) ⟨d, events⟩ = .ok () ⟨{ d with edges }, events⟩ ∧
      d.edges.Rewritten slot r edges := by
  obtain ⟨edges, hset, hrewritten⟩ := h.edges.rewrite hlive hr events
  exact ⟨edges, onEdges_of_ok hset, hrewritten⟩

/-- An update of a live node rewrites its record, and cannot delete it. -/
theorem Consistent.updateNode_of_live {d : GraphData} (h : d.Consistent) {slot : Nat}
    (hlive : d.nodes.isLive slot = true) (f : NodeRecord → NodeRecord) (events : Array Event) :
    ∃ nodes, GraphData.updateNode slot f ⟨d, events⟩ = .ok () ⟨{ d with nodes }, events⟩ ∧
      d.nodes.Rewritten slot (Record.clearDeleted (f (d.nodes.recordAt slot))) nodes := by
  have hrecord := h.nodes.record_eq (h.node_lt hlive)
  obtain ⟨nodes, hset, hrewritten⟩ := h.rewriteNode hlive
    (Record.isDeleted_clearDeleted (f (d.nodes.recordAt slot))) events
  rw [GraphData.updateNode, Edit.bind_of_ok (checkNode_of_live hlive events),
    Edit.bind_of_ok (look_of_ok hrecord events), hset]
  exact ⟨_, rfl, hrewritten⟩

/-- A node is not live and nothing happens, or its record is rewritten. -/
theorem Consistent.updateNode_cases {d : GraphData} (h : d.Consistent) (slot : Nat)
    (f : NodeRecord → NodeRecord) (events : Array Event) :
    (∃ e, GraphData.updateNode slot f ⟨d, events⟩ = .error e ⟨d, events⟩) ∨
      ∃ nodes, GraphData.updateNode slot f ⟨d, events⟩ = .ok () ⟨{ d with nodes }, events⟩ ∧
        d.nodes.isLive slot = true ∧
        d.nodes.Rewritten slot (Record.clearDeleted (f (d.nodes.recordAt slot))) nodes := by
  cases hlive : d.nodes.isLive slot with
  | false =>
    obtain ⟨e, hcheck⟩ := checkNode_of_dead hlive events
    rw [GraphData.updateNode, Edit.bind_of_error hcheck]
    exact .inl ⟨_, rfl⟩
  | true =>
    obtain ⟨nodes, heq, hrewritten⟩ := h.updateNode_of_live hlive f events
    exact .inr ⟨nodes, heq, rfl, hrewritten⟩

/-- An update leaves all lists and ends. -/
theorem Consistent.updateNode {d : GraphData} (h : d.Consistent) (slot : Nat)
    (f : NodeRecord → NodeRecord) (events : Array Event) :
    Outcome d events (updateNode slot f ⟨d, events⟩) := by
  rcases h.updateNode_cases slot f events with ⟨e, heq⟩ | ⟨nodes, heq, -, hrewritten⟩
  · exact .inl ⟨e, heq⟩
  · exact .inr ⟨_, _, _, heq, h.sameNodes hrewritten.toSameElements⟩

/-- The record of a live node is not marked as deleted. -/
theorem Consistent.isDeleted_node {d : GraphData} (h : d.Consistent) {n : Nat}
    (hn : d.topology.node n) : Record.isDeleted (d.nodes.recordAt n) = false :=
  ((h.nodes.isLive_iff n).1 hn).2.2

theorem Consistent.isDeleted_edge {d : GraphData} (h : d.Consistent) {e : Nat}
    (he : d.topology.edge e) : Record.isDeleted (d.edges.recordAt e) = false :=
  ((h.edges.isLive_iff e).1 he).2.2

/-- Dragging an edge draws the ends that it has at a node where the node now is. -/
theorem Consistent.dragEdge {d : GraphData} (h : d.Consistent) (n : Nat) (pos : Point) {e : Nat}
    (he : d.topology.edge e) (events : Array Event) :
    ∃ edges, dragEdge n pos e ⟨d, events⟩ = .ok () ⟨{ d with edges }, events⟩ ∧
      d.edges.Rewritten e ((d.edges.recordAt e).dragged (d.edges.dataAt e) n pos) edges := by
  have hdata := h.edges.data_eq (h.edge_lt he)
  have hrecord := h.edges.record_eq (h.edge_lt he)
  rw [GraphData.dragEdge, Edit.bind_of_ok (look_of_ok hdata events),
    Edit.bind_of_ok (look_of_ok hrecord events)]
  rw [EdgeRecord.dragged_eq]
  apply h.rewriteEdge he
  rw [EdgeRecord.isDeleted_dragged]
  exact h.isDeleted_edge he

/-- Live edges can all be dragged, and no other edge is drawn again. -/
theorem Consistent.forM_dragEdge {d : GraphData} (h : d.Consistent) (n : Nat) (pos : Point)
    {es : List Nat} (hes : ∀ e ∈ es, d.topology.edge e) (events : Array Event) :
    ∃ edges, es.forM (GraphData.dragEdge n pos) ⟨d, events⟩ = .ok () ⟨{ d with edges }, events⟩ ∧
      d.edges.Overwritten (· ∈ es) edges ∧ ∀ e, d.edges.isLive e = true → edges.recordAt e
        = if e ∈ es then (d.edges.recordAt e).dragged (d.edges.dataAt e) n pos
          else d.edges.recordAt e := by
  induction es generalizing d with
  | nil =>
    have hnone := (Store.Overwritten.refl h.edges).congr (Q := (· ∈ ([] : List Nat))) (by simp)
    exact ⟨d.edges, rfl, hnone, fun _ _ => rfl⟩
  | cons e es ih =>
    obtain ⟨edges, hdrag, hfirst⟩ := h.dragEdge n pos (hes e List.mem_cons_self) events
    have hlive : ∀ e ∈ es, ({ d with edges } : GraphData).topology.edge e := by
      intro e he
      rw [topology_sameEdges d hfirst.toSameElements]
      exact hes e (List.mem_cons_of_mem _ he)
    obtain ⟨edges', hrest, hover, hrecord⟩ := ih (h.sameEdges hfirst.toSameElements) hlive
    have hwritten := hfirst.overwritten h.edges (h.edge_lt (hes e List.mem_cons_self))
    refine ⟨edges', ?_, (hwritten.trans hover).congr fun x => List.mem_cons.symm, fun x hx => ?_⟩
    · rw [Edit.forM_cons_of_ok hdrag]
      exact hrest
    · have hx' : edges.isLive x = true := (hfirst.live x).trans hx
      rw [hrecord x hx', hfirst.data, hfirst.record x hx]
      -- an edge that is listed twice is drawn in the same place again
      by_cases hxe : x = e
      · subst hxe
        simp [EdgeRecord.dragged_dragged]
      · simp [hxe]

/-- The record of a node that is moved and the ends of the edges it lists are where it is now. -/
theorem Consistent.moveNode_of_live {d : GraphData} (h : d.Consistent) {slot : Nat}
    (hlive : d.nodes.isLive slot = true) (pos : Point) (events : Array Event) :
    ∃ nodes edges,
      GraphData.moveNode slot pos ⟨d, events⟩ = .ok () ⟨{ d with nodes, edges }, events⟩ ∧
      d.nodes.Rewritten slot { d.nodes.recordAt slot with pos } nodes ∧
      d.edges.Overwritten (· ∈ d.topology.adjacent slot) edges ∧
      ∀ e, d.edges.isLive e = true → edges.recordAt e
        = if e ∈ d.topology.adjacent slot then
            (d.edges.recordAt e).dragged (d.edges.dataAt e) slot pos
          else d.edges.recordAt e := by
  have hrecord := h.nodes.record_eq (h.node_lt hlive)
  obtain ⟨nodes, hset, hrewritten⟩ := h.rewriteNode (r := { d.nodes.recordAt slot with pos })
    hlive (h.isDeleted_node hlive) events
  -- the node is moved first, and its list is read from the graph with the moved node
  have hmoved := h.sameNodes hrewritten.toSameElements
  have htop := topology_sameNodes d hrewritten.toSameElements
  have hnode : ({ d with nodes } : GraphData).topology.node slot := by
    rw [htop]
    exact hlive
  have hdata := hmoved.nodes.data_eq (hmoved.node_lt hnode)
  obtain ⟨edges, hdrag, hover, hdragged⟩ := hmoved.forM_dragEdge slot pos
    (fun e he => ((hmoved.linked.mem_adjacent slot hnode e).1 he).1) events
  rw [GraphData.moveNode, Edit.bind_of_ok (checkNode_of_live hlive events),
    Edit.bind_of_ok (look_of_ok hrecord events), Edit.bind_of_ok hset,
    Edit.bind_of_ok (look_of_ok (f := (·.nodes.data slot)) hdata events)]
  rw [htop] at hover hdragged
  exact ⟨nodes, edges, hdrag, hrewritten, hover, hdragged⟩

/-- A node is not moved, or its record and the ends of the edges it lists are where it is now. -/
theorem Consistent.moveNode_cases {d : GraphData} (h : d.Consistent) (slot : Nat) (pos : Point)
    (events : Array Event) :
    (∃ f, GraphData.moveNode slot pos ⟨d, events⟩ = .error f ⟨d, events⟩) ∨
      ∃ nodes edges,
        GraphData.moveNode slot pos ⟨d, events⟩ = .ok () ⟨{ d with nodes, edges }, events⟩ ∧
        d.nodes.isLive slot = true ∧
        d.nodes.Rewritten slot { d.nodes.recordAt slot with pos } nodes ∧
        d.edges.SameElements edges ∧ ∀ e, d.edges.isLive e = true → edges.recordAt e
          = if e ∈ d.topology.adjacent slot then
              (d.edges.recordAt e).dragged (d.edges.dataAt e) slot pos
            else d.edges.recordAt e := by
  cases hlive : d.nodes.isLive slot with
  | false =>
    obtain ⟨e, hcheck⟩ := checkNode_of_dead hlive events
    rw [GraphData.moveNode, Edit.bind_of_error hcheck]
    exact .inl ⟨_, rfl⟩
  | true =>
    obtain ⟨nodes, edges, heq, hnodes, hedges, hdragged⟩ := h.moveNode_of_live hlive pos events
    exact .inr ⟨nodes, edges, heq, rfl, hnodes, hedges.sameElements, hdragged⟩

/-- A move leaves all lists and ends: only positions are written. -/
theorem Consistent.moveNode {d : GraphData} (h : d.Consistent) (slot : Nat) (pos : Point)
    (events : Array Event) : Outcome d events (moveNode slot pos ⟨d, events⟩) := by
  rcases h.moveNode_cases slot pos events with ⟨f, heq⟩ | ⟨nodes, edges, heq, -, hnodes, hedges, -⟩
  · exact .inl ⟨f, heq⟩
  · exact .inr ⟨_, _, _, heq, (h.sameNodes hnodes.toSameElements).sameEdges hedges⟩

/-! ## Edges -/

/-- The nodes are the same, but for the edges they list. -/
structure Kept (s s' : NodeStore) : Prop where
  wellFormed : s'.WellFormed
  len : s'.len = s.len
  free : s'.free = s.free
  taken : ∀ x, s'.Taken x ↔ s.Taken x
  live : ∀ x, s'.isLive x = s.isLive x
  record : ∀ x, s'.recordAt x = s.recordAt x
  generation : ∀ x, (s'.dataAt x).generation = (s.dataAt x).generation

theorem Kept.trans {s s₁ s₂ : NodeStore} (h : Kept s s₁) (h' : Kept s₁ s₂) : Kept s s₂ where
  wellFormed := h'.wellFormed
  len := h'.len.trans h.len
  free := h'.free.trans h.free
  taken x := (h'.taken x).trans (h.taken x)
  live x := (h'.live x).trans (h.live x)
  record x := (h'.record x).trans (h.record x)
  generation x := (h'.generation x).trans (h.generation x)

/-- A live node lists other edges. -/
theorem relistNode {d : GraphData} (hwf : d.nodes.WellFormed) {n : Nat}
    (hn : d.nodes.isLive n = true) (f : List Nat → List Nat) (events : Array Event) :
    ∃ nodes : NodeStore,
      onNodes (Store.modifyData n fun data => { data with adjacent := f data.adjacent }) ⟨d, events⟩
        = .ok () ⟨{ d with nodes }, events⟩ ∧ Kept d.nodes nodes ∧
      ∀ x, (nodes.dataAt x).adjacent
        = if x = n then f (d.nodes.dataAt x).adjacent else (d.nodes.dataAt x).adjacent := by
  obtain ⟨nodes, hmodify, hwf', hlen, hfree, hisFree, hlive, hrecord, hdata⟩ :=
    hwf.amend (hwf.lt_of_isLive hn) (fun data => { data with adjacent := f data.adjacent }) events
  refine ⟨nodes, onNodes_of_ok hmodify,
    ⟨hwf', hlen, hfree, fun x => ?_, hlive, hrecord, fun x => ?_⟩, fun x => ?_⟩
  · rw [Store.Taken, Store.Taken, hlen, hisFree]
  · rw [hdata]
    split
    · rfl
    · rfl
  · rw [hdata]
    split
    · rfl
    · rfl

/-- The nodes are the same, and list these edges. -/
structure Relisted (s : NodeStore) (adjacent : Nat → List Nat) (s' : NodeStore) : Prop extends
    Kept s s' where
  adjacent : ∀ x, (s'.dataAt x).adjacent = adjacent x

/-- The nodes list an inserted edge, which makes the topology one with the edge. -/
theorem topology_insertEdge {d : GraphData} {slot source target : Nat} {r : EdgeRecord}
    {nodes : NodeStore} {edges : EdgeStore}
    (hins : d.edges.Inserted slot r { source, target } edges)
    (hlist : Relisted d.nodes (d.topology.insertEdge slot source target).adjacent nodes) :
    ({ d with nodes, edges } : GraphData).topology = d.topology.insertEdge slot source target := by
  apply Topology.ext
  · funext n
    show (nodes.isLive n = true) = _
    rw [hlist.live]
    rfl
  · funext e
    exact propext (hins.live e)
  · funext e
    exact hins.data e
  · funext n
    exact hlist.adjacent n

/-- The ends of an edge list it, a loop once. -/
theorem listEdge {d : GraphData} (hwf : d.nodes.WellFormed) {source target : Nat}
    (hsource : d.nodes.isLive source = true) (htarget : d.nodes.isLive target = true) (slot : Nat)
    (events : Array Event) :
    ∃ nodes, Relisted d.nodes (d.topology.insertEdge slot source target).adjacent nodes ∧
      (do
        let list (d : NodeData) : NodeData := { d with adjacent := d.adjacent ++ [slot] }
        onNodes (Store.modifyData source list)
        if target ≠ source then onNodes (Store.modifyData target list)
        return slot : GraphEdit Nat) ⟨d, events⟩ = .ok slot ⟨{ d with nodes }, events⟩ := by
  obtain ⟨n₁, hfirst, hkept₁, hlist₁⟩ := relistNode hwf hsource (· ++ [slot]) events
  dsimp only
  rw [Edit.bind_of_ok hfirst]
  -- a loop is listed once, at its only end
  by_cases hloop : target = source
  · rw [if_neg fun hne => hne hloop]
    refine ⟨n₁, ⟨hkept₁, fun x => ?_⟩, rfl⟩
    rw [hlist₁, Topology.insertEdge, hloop]
    by_cases hx : x = source
    · simp [hx, topology]
    · simp [hx, topology]
  · obtain ⟨n₂, hsecond, hkept₂, hlist₂⟩ := relistNode (d := { d with nodes := n₁ })
      hkept₁.wellFormed ((hkept₁.live target).trans htarget) (· ++ [slot]) events
    rw [if_pos hloop, Edit.bind_of_ok hsecond]
    refine ⟨n₂, ⟨hkept₁.trans hkept₂, fun x => ?_⟩, rfl⟩
    rw [hlist₂]
    show (if x = target then (n₁.dataAt x).adjacent ++ [slot] else (n₁.dataAt x).adjacent)
      = if x = source ∨ x = target then _ else _
    rw [hlist₁]
    by_cases hx : x = source
    · have hxt : x ≠ target := fun heq => hloop (heq.symm.trans hx)
      rw [if_neg hxt, if_pos hx, if_pos (.inl hx)]
      rfl
    · by_cases hxt : x = target
      · rw [if_pos hxt, if_neg hx, if_pos (.inr hxt)]
        rfl
      · rw [if_neg hxt, if_neg hx, if_neg (not_or.2 ⟨hx, hxt⟩)]
        rfl

/-- An edge between two nodes is refused a slot, or gets one that held none, is drawn between its ends, and
is listed by them. -/
theorem Consistent.addEdge_of_live {d : GraphData} (h : d.Consistent) {source target : Nat}
    (hsource : d.nodes.isLive source = true) (htarget : d.nodes.isLive target = true)
    (width : Single) (color : Color) (events : Array Event) :
    (∃ f, Store.add 1 ⟨d.edges, events⟩ = .error f ⟨d.edges, events⟩ ∧
      GraphData.addEdge source target width color ⟨d, events⟩ = .error (.fault f) ⟨d, events⟩) ∨
      ∃ slot nodes edges events', GraphData.addEdge source target width color ⟨d, events⟩
          = .ok slot ⟨{ d with nodes, edges }, events'⟩ ∧
        d.edges.Inserted slot ⟨(d.nodes.recordAt source).pos, (d.nodes.recordAt target).pos, width,
          color, 0⟩ { source, target } edges ∧
        Relisted d.nodes (d.topology.insertEdge slot source target).adjacent nodes := by
  have ha := h.nodes.record_eq (h.node_lt hsource)
  have hb := h.nodes.record_eq (h.node_lt htarget)
  rw [GraphData.addEdge, Edit.bind_of_ok (checkNode_of_live hsource events),
    Edit.bind_of_ok (checkNode_of_live htarget events), Edit.bind_of_ok (look_of_ok ha events),
    Edit.bind_of_ok (look_of_ok hb events)]
  rcases h.edges.add_one_cases events with ⟨f, hadd⟩ | ⟨slot, s₀, events', hadd, hfresh⟩
  · rw [Edit.bind_of_error (onEdges_of_error hadd)]
    exact .inl ⟨f, hadd, rfl⟩
  · obtain ⟨s₁, s₂, hmodify, hset, hins⟩ := hfresh.insert (fun _ => { source, target })
      (r := { source := (d.nodes.recordAt source).pos, target := (d.nodes.recordAt target).pos,
              width, color }) (by show ((0 : UInt8) &&& deletedFlag != 0) = false; decide) events'
    rw [Edit.bind_of_ok (onEdges_of_ok hadd),
      Edit.bind_of_ok (onEdges_of_ok (d := { d with edges := s₀ }) hmodify),
      Edit.bind_of_ok (onEdges_of_ok (d := { d with edges := s₁ }) hset)]
    obtain ⟨nodes, hlist, heq⟩ := listEdge (d := { d with edges := s₂ }) h.nodes hsource htarget
      slot events'
    exact .inr ⟨slot, nodes, s₂, events', heq, hins, hlist⟩

/-- An edge is not added, or gets a slot that held none, is drawn between its ends, and is listed by
them. -/
theorem Consistent.addEdge_cases {d : GraphData} (h : d.Consistent) (source target : Nat)
    (width : Single) (color : Color) (events : Array Event) :
    (∃ f, GraphData.addEdge source target width color ⟨d, events⟩ = .error f ⟨d, events⟩) ∨
      ∃ slot nodes edges events', GraphData.addEdge source target width color ⟨d, events⟩
          = .ok slot ⟨{ d with nodes, edges }, events'⟩ ∧
        d.nodes.isLive source = true ∧ d.nodes.isLive target = true ∧
        d.edges.Inserted slot ⟨(d.nodes.recordAt source).pos, (d.nodes.recordAt target).pos, width,
          color, 0⟩ { source, target } edges ∧
        Relisted d.nodes (d.topology.insertEdge slot source target).adjacent nodes := by
  cases hsource : d.nodes.isLive source with
  | false =>
    obtain ⟨e, hcheck⟩ := checkNode_of_dead hsource events
    rw [GraphData.addEdge, Edit.bind_of_error hcheck]
    exact .inl ⟨_, rfl⟩
  | true =>
  cases htarget : d.nodes.isLive target with
  | false =>
    obtain ⟨e, hcheck⟩ := checkNode_of_dead htarget events
    rw [GraphData.addEdge, Edit.bind_of_ok (checkNode_of_live hsource events),
      Edit.bind_of_error hcheck]
    exact .inl ⟨_, rfl⟩
  | true =>
  rcases h.addEdge_of_live hsource htarget width color events with
    ⟨f, -, heq⟩ | ⟨slot, nodes, edges, events', heq, hadded⟩
  · exact .inl ⟨_, heq⟩
  · exact .inr ⟨slot, nodes, edges, events', heq, rfl, rfl, hadded⟩

/-- A new edge is listed by both of its ends. -/
theorem Consistent.addEdge {d : GraphData} (h : d.Consistent) (source target : Nat)
    (width : Single) (color : Color) (events : Array Event) :
    Outcome d events (addEdge source target width color ⟨d, events⟩) := by
  rcases h.addEdge_cases source target width color events with
    ⟨f, heq⟩ | ⟨slot, nodes, edges, events', heq, hsource, htarget, hins, hlist⟩
  · exact .inl ⟨f, heq⟩
  · have hdead : ¬ d.topology.edge slot := by
      show ¬ d.edges.isLive slot = true
      rw [hins.dead]
      exact Bool.false_ne_true
    refine .inr ⟨_, _, _, heq, hlist.wellFormed, hins.wellFormed, ?_⟩
    rw [topology_insertEdge hins hlist]
    exact h.linked.insertEdge hdead hsource htarget

/-- Some edges are gone, with their attributes; the nodes only list others. -/
structure Dropped (d : GraphData) (es : List Nat) (d' : GraphData) : Prop where
  nodes : Kept d.nodes d'.nodes
  edges : d.edges.Erased es d'.edges
  nodeAttributes : d'.nodeAttributes = d.nodeAttributes
  edgeAttributes : d'.edgeAttributes = es.foldl AttributeSet.clearSlot d.edgeAttributes

theorem dropped_nil {d : GraphData} (hnodes : d.nodes.WellFormed) (hedges : d.edges.WellFormed) :
    Dropped d [] d where
  nodes := ⟨hnodes, rfl, rfl, fun _ => .rfl, fun _ => rfl, fun _ => rfl, fun _ => rfl⟩
  edges := hedges.erased_nil
  nodeAttributes := rfl
  edgeAttributes := rfl

/-- Edges that go one after the other are gone together. -/
theorem Dropped.trans {d d₁ d₂ : GraphData} {es fs : List Nat} (h : Dropped d es d₁)
    (h' : Dropped d₁ fs d₂) : Dropped d (es ++ fs) d₂ where
  nodes := h.nodes.trans h'.nodes
  edges := h.edges.trans h'.edges
  nodeAttributes := h'.nodeAttributes.trans h.nodeAttributes
  edgeAttributes := by rw [h'.edgeAttributes, h.edgeAttributes, List.foldl_append]

/-- An edge between nodes is removed. The rest of the graph may be in the middle of a change. -/
theorem removeEdge_eq {d : GraphData} (hnodes : d.nodes.WellFormed) (hedges : d.edges.WellFormed)
    {e : Nat} (he : d.topology.edge e) (hends : ∀ n, d.topology.Meets e n → d.topology.node n)
    (events : Array Event) :
    ∃ d', removeEdge e ⟨d, events⟩ = .ok () ⟨d', events⟩ ∧ Dropped d [e] d' ∧
      d'.topology = d.topology.deleteEdge e := by
  have hlen := ((hedges.isLive_iff e).1 he).1
  have hdata := hedges.data_eq (Nat.lt_of_lt_of_le hlen hedges.len_le)
  have hsource : d.nodes.isLive (d.edges.dataAt e).source = true := hends _ (.inl rfl)
  have htarget : d.nodes.isLive (d.edges.dataAt e).target = true := hends _ (.inr rfl)
  obtain ⟨n₁, hfirst, hkept₁, hlist₁⟩ := relistNode hnodes hsource (·.filter (· != e)) events
  obtain ⟨n₂, hsecond, hkept₂, hlist₂⟩ := relistNode (d := { d with nodes := n₁ })
    hkept₁.wellFormed ((hkept₁.live _).trans htarget) (·.filter (· != e)) events
  have hkept : Kept d.nodes n₂ := hkept₁.trans hkept₂
  obtain ⟨s', hset, herased⟩ := hedges.erase hlen events
  -- what the call evaluates to; the topology of that is compared below, field by field
  have heval : removeEdge e ⟨d, events⟩ = .ok () ⟨{ d with
      nodes := n₂
      edges := s'
      edgeAttributes := d.edgeAttributes.clearSlot e }, events⟩ := by
    rw [removeEdge, Edit.bind_of_ok (checkEdge_of_live he events),
      Edit.bind_of_ok (look_of_ok hdata events), Edit.bind_of_ok hfirst, Edit.bind_of_ok hsecond,
      Edit.bind_of_ok (onEdges_of_ok (d := { d with nodes := n₂ }) hset)]
    rfl
  refine ⟨_, heval, ⟨hkept, herased, rfl, rfl⟩, Topology.ext ?_ ?_ ?_ ?_⟩
  · funext n
    show (n₂.isLive n = true) = (d.nodes.isLive n = true)
    rw [hkept.live]
  · funext x
    show (s'.isLive x = true) = (d.edges.isLive x = true ∧ x ≠ e)
    rw [herased.live, List.mem_singleton]
  · funext x
    exact herased.data x
  · funext n
    show (n₂.dataAt n).adjacent = if n = (d.edges.dataAt e).source ∨ n = (d.edges.dataAt e).target
      then (d.nodes.dataAt n).adjacent.filter (· != e) else (d.nodes.dataAt n).adjacent
    rw [hlist₂]
    show (if n = (d.edges.dataAt e).target then (n₁.dataAt n).adjacent.filter (· != e)
      else (n₁.dataAt n).adjacent) = _
    rw [hlist₁]
    by_cases hs : n = (d.edges.dataAt e).source
    · by_cases ht : n = (d.edges.dataAt e).target
      · -- a loop is struck twice from the same list
        rw [if_pos ht, if_pos hs, if_pos (.inl hs), List.filter_filter]
        simp only [Bool.and_self]
      · rw [if_neg ht, if_pos hs, if_pos (.inl hs)]
    · by_cases ht : n = (d.edges.dataAt e).target
      · rw [if_pos ht, if_neg hs, if_pos (.inr ht)]
      · rw [if_neg ht, if_neg hs, if_neg (not_or.2 ⟨hs, ht⟩)]

/-- A live edge goes, and the rest stays consistent. -/
theorem Consistent.removeEdge_of_live {d : GraphData} (h : d.Consistent) {slot : Nat}
    (hlive : d.edges.isLive slot = true) (events : Array Event) :
    ∃ d', GraphData.removeEdge slot ⟨d, events⟩ = .ok () ⟨d', events⟩ ∧ Dropped d [slot] d' ∧
      d'.Consistent := by
  obtain ⟨d', heval, hdropped, htop⟩ := removeEdge_eq h.nodes h.edges hlive
    (h.linked.node_of_meets slot hlive) events
  refine ⟨d', heval, hdropped, hdropped.nodes.wellFormed, hdropped.edges.wellFormed, ?_⟩
  exact htop ▸ h.linked.deleteEdge slot

/-- An edge is not live and nothing happens, or it goes. -/
theorem Consistent.removeEdge_cases {d : GraphData} (h : d.Consistent) (slot : Nat)
    (events : Array Event) :
    (∃ f, GraphData.removeEdge slot ⟨d, events⟩ = .error f ⟨d, events⟩) ∨
      ∃ d', GraphData.removeEdge slot ⟨d, events⟩ = .ok () ⟨d', events⟩ ∧ Dropped d [slot] d' ∧
        d'.Consistent := by
  cases hlive : d.edges.isLive slot with
  | false =>
    obtain ⟨e, hcheck⟩ := checkEdge_of_dead hlive events
    rw [GraphData.removeEdge, Edit.bind_of_error hcheck]
    exact .inl ⟨_, rfl⟩
  | true => exact .inr (h.removeEdge_of_live hlive events)

/-- A removed edge is listed by neither of its ends. -/
theorem Consistent.removeEdge {d : GraphData} (h : d.Consistent) (slot : Nat)
    (events : Array Event) : Outcome d events (removeEdge slot ⟨d, events⟩) := by
  rcases h.removeEdge_cases slot events with ⟨f, heq⟩ | ⟨d', heq, -, h'⟩
  · exact .inl ⟨f, heq⟩
  · exact .inr ⟨_, d', events, heq, h'⟩

/-! ## Removing a node -/

/-- Node `n` is being taken apart: its own list is empty already, and `pending` are the edges that it
still has. -/
structure Dismantling (d : GraphData) (n : Nat) (pending : List Nat) : Prop where
  nodes : d.nodes.WellFormed
  edges : d.edges.WellFormed
  node : d.topology.node n
  unlisted : d.topology.adjacent n = []
  linked : (d.topology.relist n pending).Linked

/-- The edges of a node that is taken apart can be removed one after the other. -/
theorem Dismantling.forM_removeEdge {d : GraphData} {n : Nat} {es : List Nat}
    (h : Dismantling d n es) (events : Array Event) :
    ∃ d', es.forM GraphData.removeEdge ⟨d, events⟩ = .ok () ⟨d', events⟩ ∧ Dropped d es d' ∧
      d'.topology = es.foldl Topology.deleteEdge d.topology ∧ Dismantling d' n [] := by
  induction es generalizing d with
  | nil => exact ⟨d, rfl, dropped_nil h.nodes h.edges, rfl, h⟩
  | cons e es ih =>
    -- the list is gone from the node, so the edge is found in the topology with the list put back
    have hlist : (d.topology.relist n (e :: es)).adjacent n = e :: es := if_pos rfl
    have hmem := h.linked.mem_adjacent n h.node e
    rw [hlist] at hmem
    have he : d.topology.edge e := (hmem.1 List.mem_cons_self).1
    obtain ⟨d₁, heval, hdropped, htop⟩ := removeEdge_eq h.nodes h.edges he
      (fun m hm => h.linked.node_of_meets e he m hm) events
    have hunlisted : d₁.topology.adjacent n = [] := by
      rw [htop]
      show (if _ then (d.topology.adjacent n).filter _ else d.topology.adjacent n) = []
      rw [h.unlisted]
      split
      · rfl
      · rfl
    have hnext : Dismantling d₁ n es := by
      refine ⟨hdropped.nodes.wellFormed, hdropped.edges.wellFormed, ?_, hunlisted, ?_⟩
      · rw [htop]
        exact h.node
      · rw [htop]
        exact h.linked.deleteEdge_relist h.node
    obtain ⟨d', hrest, hdropped', htop', hd'⟩ := ih hnext
    refine ⟨d', ?_, hdropped.trans hdropped', ?_, hd'⟩
    · rw [Edit.forM_cons_of_ok heval]
      exact hrest
    · rw [htop', htop]
      rfl

/-- A node begins to be taken apart when its list is emptied. -/
theorem Consistent.dismantle {d : GraphData} (h : d.Consistent) {n : Nat}
    (hn : d.topology.node n) (events : Array Event) :
    ∃ nodes, onNodes (Store.modifyData n ({ · with adjacent := [] })) ⟨d, events⟩
        = .ok () ⟨{ d with nodes }, events⟩ ∧ Kept d.nodes nodes ∧
      (∀ m, m ≠ n → (nodes.dataAt m).adjacent = (d.nodes.dataAt m).adjacent) ∧
      Dismantling { d with nodes } n (d.nodes.dataAt n).adjacent := by
  obtain ⟨nodes, hempty, hkept, hlist⟩ := relistNode h.nodes hn (fun _ => []) events
  -- with its list put back, the topology is the one from before
  have hrelist : ({ d with nodes } : GraphData).topology.relist n (d.nodes.dataAt n).adjacent
      = d.topology.relist n (d.nodes.dataAt n).adjacent := by
    refine Topology.ext ?_ rfl rfl ?_
    · funext m
      show (nodes.isLive m = true) = _
      rw [hkept.live]
      rfl
    · funext m
      show (if m = n then _ else (nodes.dataAt m).adjacent)
        = if m = n then _ else (d.nodes.dataAt m).adjacent
      by_cases hm : m = n
      · rw [if_pos hm, if_pos hm]
      · rw [if_neg hm, if_neg hm, hlist, if_neg hm]
  refine ⟨nodes, hempty, hkept, fun m hm => (hlist m).trans (if_neg hm), hkept.wellFormed, h.edges,
    (hkept.live n).trans hn, ?_, ?_⟩
  · show (nodes.dataAt n).adjacent = []
    rw [hlist, if_pos rfl]
  · have hown : d.topology.adjacent n = (d.nodes.dataAt n).adjacent := rfl
    rw [hrelist, Topology.relist_eq_self hown]
    exact h.linked

/-- The edges of a node that is removed go first, and then the node. The other nodes strike the edges from
their lists. -/
theorem Consistent.removeNode_of_live {d : GraphData} (h : d.Consistent) {slot : Nat}
    (hlive : d.nodes.isLive slot = true) (events : Array Event) :
    ∃ d₁ nodes, GraphData.removeNode slot ⟨d, events⟩ = .ok () ⟨{ d₁ with
        nodes, nodeAttributes := d₁.nodeAttributes.clearSlot slot }, events⟩ ∧
      Dropped d (d.nodes.dataAt slot).adjacent d₁ ∧ d₁.nodes.Erased [slot] nodes ∧
      (∀ m, d.topology.node m → m ≠ slot → (nodes.dataAt m).adjacent
        = (d.nodes.dataAt m).adjacent.filter (· ∉ (d.nodes.dataAt slot).adjacent)) ∧
      ({ d₁ with nodes } : GraphData).Consistent := by
  have hdata := h.nodes.data_eq (h.node_lt hlive)
  obtain ⟨n₁, hempty, hkept, hothers, hstart⟩ := h.dismantle hlive events
  obtain ⟨d₂, hloop, hdropped, hstruck, hend⟩ := hstart.forM_removeEdge events
  -- nothing is pending any more, so the node has no edges when it goes
  have hlen := ((hend.nodes.isLive_iff slot).1 hend.node).1
  obtain ⟨nodes, hset, herased⟩ := hend.nodes.erase hlen events
  have hlinked := hend.linked
  rw [Topology.relist_eq_self hend.unlisted] at hlinked
  -- the last step takes one node from the topology
  have htop : ({ d₂ with nodes } : GraphData).topology = d₂.topology.deleteNode slot := by
    refine Topology.ext ?_ rfl rfl ?_
    · funext n
      show (nodes.isLive n = true) = (d₂.nodes.isLive n = true ∧ n ≠ slot)
      rw [herased.live, List.mem_singleton]
    · funext n
      show (nodes.dataAt n).adjacent = _
      rw [herased.data]
      rfl
  rw [GraphData.removeNode, Edit.bind_of_ok (checkNode_of_live hlive events),
    Edit.bind_of_ok (look_of_ok hdata events), Edit.bind_of_ok hempty,
    Edit.bind_of_ok (x := (d.nodes.dataAt slot).adjacent.forM GraphData.removeEdge) hloop,
    Edit.bind_of_ok (onNodes_of_ok hset)]
  have hgone : Dropped d (d.nodes.dataAt slot).adjacent d₂ :=
    ⟨hkept.trans hdropped.nodes, hdropped.edges, hdropped.nodeAttributes, hdropped.edgeAttributes⟩
  refine ⟨d₂, nodes, rfl, hgone, herased, fun m hm hne => ?_, herased.wellFormed, hend.edges, ?_⟩
  · rw [herased.data]
    -- the other nodes have their lists from before, without the edges that were struck
    have hlist : ({ d with nodes := n₁ } : GraphData).topology.adjacent m
        = (d.nodes.dataAt m).adjacent := hothers m hne
    have hmeets : ∀ e ∈ ({ d with nodes := n₁ } : GraphData).topology.adjacent m,
        ({ d with nodes := n₁ } : GraphData).topology.Meets e m := by
      intro e he
      rw [hlist] at he
      exact ((h.linked.mem_adjacent m hm e).1 he).2
    rw [← hlist, ← Topology.adjacent_foldl_deleteEdge hmeets, ← hstruck]
    rfl
  · exact htop ▸ hlinked.deleteNode hend.node hend.unlisted

/-- A node is not removed, or its edges go first, and then the node. -/
theorem Consistent.removeNode_cases {d : GraphData} (h : d.Consistent) (slot : Nat)
    (events : Array Event) :
    (d.nodes.isLive slot = false ∧
      ∃ f, GraphData.removeNode slot ⟨d, events⟩ = .error f ⟨d, events⟩) ∨
    ∃ d₁ nodes, GraphData.removeNode slot ⟨d, events⟩ = .ok () ⟨{ d₁ with
        nodes, nodeAttributes := d₁.nodeAttributes.clearSlot slot }, events⟩ ∧
      d.nodes.isLive slot = true ∧ Dropped d (d.nodes.dataAt slot).adjacent d₁ ∧
      d₁.nodes.Erased [slot] nodes ∧ ({ d₁ with nodes } : GraphData).Consistent := by
  cases hlive : d.nodes.isLive slot with
  | false =>
    obtain ⟨e, hcheck⟩ := checkNode_of_dead hlive events
    rw [GraphData.removeNode, Edit.bind_of_error hcheck]
    exact .inl ⟨rfl, _, rfl⟩
  | true =>
    obtain ⟨d₁, nodes, heq, hdropped, herased, -, h'⟩ := h.removeNode_of_live hlive events
    exact .inr ⟨d₁, nodes, heq, rfl, hdropped, herased, h'⟩

/-- No edge that ended at a removed node is left. -/
theorem Consistent.removeNode {d : GraphData} (h : d.Consistent) (slot : Nat)
    (events : Array Event) : Outcome d events (removeNode slot ⟨d, events⟩) := by
  rcases h.removeNode_cases slot events with ⟨-, f, heq⟩ | ⟨d₁, nodes, heq, -, -, -, h'⟩
  · exact .inl ⟨f, heq⟩
  · exact .inr ⟨_, _, events, heq, h'.nodes, h'.edges, h'.linked⟩

/-! ## Both -/

theorem Consistent.highlightNode_of_live {d : GraphData} (h : d.Consistent) {slot : Nat}
    (hlive : d.nodes.isLive slot = true) (on : Bool) (events : Array Event) :
    ∃ nodes, GraphData.setHighlighted .node slot on ⟨d, events⟩ = .ok () ⟨{ d with nodes }, events⟩ ∧
      d.nodes.Rewritten slot (Record.setHighlighted (d.nodes.recordAt slot) on) nodes := by
  have hrecord := h.nodes.record_eq (h.node_lt hlive)
  obtain ⟨nodes, hset, hrewritten⟩ := h.rewriteNode
    (r := Record.setHighlighted (d.nodes.recordAt slot) on) hlive
    (by rw [Record.isDeleted_setHighlighted]; exact h.isDeleted_node hlive) events
  rw [GraphData.setHighlighted, Edit.bind_of_ok (checkNode_of_live hlive events),
    Edit.bind_of_ok (look_of_ok hrecord events), hset]
  exact ⟨_, rfl, hrewritten⟩

theorem Consistent.highlightEdge_of_live {d : GraphData} (h : d.Consistent) {slot : Nat}
    (hlive : d.edges.isLive slot = true) (on : Bool) (events : Array Event) :
    ∃ edges, GraphData.setHighlighted .edge slot on ⟨d, events⟩ = .ok () ⟨{ d with edges }, events⟩ ∧
      d.edges.Rewritten slot (Record.setHighlighted (d.edges.recordAt slot) on) edges := by
  have hrecord := h.edges.record_eq (h.edge_lt hlive)
  obtain ⟨edges, hset, hrewritten⟩ := h.rewriteEdge
    (r := Record.setHighlighted (d.edges.recordAt slot) on) hlive
    (by rw [Record.isDeleted_setHighlighted]; exact h.isDeleted_edge hlive) events
  rw [GraphData.setHighlighted, Edit.bind_of_ok (checkEdge_of_live hlive events),
    Edit.bind_of_ok (look_of_ok hrecord events), hset]
  exact ⟨_, rfl, hrewritten⟩

/-- A highlight is refused, or rewrites the record of one node or of one edge. -/
theorem Consistent.setHighlighted_cases {d : GraphData} (h : d.Consistent) (k : Kind) (slot : Nat)
    (on : Bool) (events : Array Event) :
    (∃ f, GraphData.setHighlighted k slot on ⟨d, events⟩ = .error f ⟨d, events⟩) ∨
    (∃ nodes, GraphData.setHighlighted k slot on ⟨d, events⟩ = .ok () ⟨{ d with nodes }, events⟩ ∧
      d.nodes.Rewritten slot (Record.setHighlighted (d.nodes.recordAt slot) on) nodes) ∨
    ∃ edges, GraphData.setHighlighted k slot on ⟨d, events⟩ = .ok () ⟨{ d with edges }, events⟩ ∧
      d.edges.Rewritten slot (Record.setHighlighted (d.edges.recordAt slot) on) edges := by
  cases k with
  | node =>
    cases hlive : d.nodes.isLive slot with
    | false =>
      obtain ⟨e, hcheck⟩ := checkNode_of_dead hlive events
      rw [GraphData.setHighlighted, Edit.bind_of_error hcheck]
      exact .inl ⟨_, rfl⟩
    | true => exact .inr (.inl (h.highlightNode_of_live hlive on events))
  | edge =>
    cases hlive : d.edges.isLive slot with
    | false =>
      obtain ⟨e, hcheck⟩ := checkEdge_of_dead hlive events
      rw [GraphData.setHighlighted, Edit.bind_of_error hcheck]
      exact .inl ⟨_, rfl⟩
    | true => exact .inr (.inr (h.highlightEdge_of_live hlive on events))

/-- A highlight leaves all lists and ends. -/
theorem Consistent.setHighlighted {d : GraphData} (h : d.Consistent) (k : Kind) (slot : Nat)
    (on : Bool) (events : Array Event) :
    Outcome d events (setHighlighted k slot on ⟨d, events⟩) := by
  rcases h.setHighlighted_cases k slot on events with
    ⟨f, heq⟩ | ⟨nodes, heq, hnodes⟩ | ⟨edges, heq, hedges⟩
  · exact .inl ⟨f, heq⟩
  · exact .inr ⟨_, _, _, heq, h.sameNodes hnodes.toSameElements⟩
  · exact .inr ⟨_, _, _, heq, h.sameEdges hedges.toSameElements⟩

/-- A flush keeps all elements and records of both stores. What it changes are the changes that wait. -/
theorem Consistent.flush_eq {d : GraphData} (h : d.Consistent) (events : Array Event) :
    ∃ nodes edges events', GraphData.flush ⟨d, events⟩ = .ok () ⟨{ d with nodes, edges }, events'⟩ ∧
      (d.nodes.SameElements nodes ∧ ∀ x, nodes.recordAt x = d.nodes.recordAt x) ∧
      d.edges.SameElements edges ∧ ∀ x, edges.recordAt x = d.edges.recordAt x := by
  obtain ⟨nodes, events₁, hnodes, hsame⟩ := h.nodes.publish events
  obtain ⟨edges, events₂, hedges, hsame'⟩ := h.edges.publish events₁
  rw [GraphData.flush, Edit.bind_of_ok (onNodes_of_ok hnodes),
    onEdges_of_ok (d := { d with nodes }) hedges]
  exact ⟨_, _, _, rfl, hsame, hsame'⟩

/-- A flush leaves all lists and ends. -/
theorem Consistent.flush {d : GraphData} (h : d.Consistent) (events : Array Event) :
    Outcome d events (flush ⟨d, events⟩) := by
  obtain ⟨nodes, edges, events', heq, ⟨hnodes, -⟩, hedges, -⟩ := h.flush_eq events
  exact .inr ⟨_, _, _, heq, (h.sameNodes hnodes).sameEdges hedges⟩

theorem onAttributes_cases (d : GraphData) (k : Kind)
    (f : AttributeSet → Except AttributeError AttributeSet) (events : Array Event) :
    (∃ e, onAttributes k f ⟨d, events⟩ = .error e ⟨d, events⟩) ∨
      ∃ s, f (d.attributes k) = .ok s ∧
        onAttributes k f ⟨d, events⟩ = .ok () ⟨d.setAttributes k s, events⟩ := by
  rw [GraphData.onAttributes, Edit.read_bind]
  cases hf : f (d.attributes k) with
  | error e => exact .inl ⟨_, rfl⟩
  | ok s => exact .inr ⟨s, rfl, rfl⟩

/-- Attributes have no part in the topology. -/
theorem Consistent.onAttributes {d : GraphData} (h : d.Consistent) (k : Kind)
    (f : AttributeSet → Except AttributeError AttributeSet) (events : Array Event) :
    Outcome d events (onAttributes k f ⟨d, events⟩) := by
  rcases onAttributes_cases d k f events with ⟨e, heq⟩ | ⟨s, -, heq⟩
  · exact .inl ⟨e, heq⟩
  · refine .inr ⟨_, _, _, heq, ?_⟩
    cases k with
    | node => exact ⟨h.nodes, h.edges, h.linked⟩
    | edge => exact ⟨h.nodes, h.edges, h.linked⟩

/-! ## Runs -/

/-- A call on a graph. -/
inductive Call
  | addNode (r : NodeRecord)
  | addEdge (source target : Nat) (width : Single) (color : Color)
  | moveNode (slot : Nat) (pos : Point)
  | updateNode (slot : Nat) (f : NodeRecord → NodeRecord)
  | setHighlighted (k : Kind) (slot : Nat) (on : Bool)
  | removeEdge (slot : Nat)
  | removeNode (slot : Nat)
  | attributes (k : Kind) (f : AttributeSet → Except AttributeError AttributeSet)
  | flush

/-- What the call does; the slot of a new element is not looked at. -/
def Call.edit : Call → GraphEdit Unit
  | addNode r => discard (GraphData.addNode r)
  | addEdge source target width color => discard (GraphData.addEdge source target width color)
  | moveNode slot pos => GraphData.moveNode slot pos
  | updateNode slot f => GraphData.updateNode slot f
  | setHighlighted k slot on => GraphData.setHighlighted k slot on
  | removeEdge slot => GraphData.removeEdge slot
  | removeNode slot => GraphData.removeNode slot
  | attributes k f => GraphData.onAttributes k f
  | flush => GraphData.flush

/-- The graph after some calls, also where they fail, with the events published since the start. -/
def run (d : GraphData) (calls : List Call) : Tracked GraphData :=
  calls.foldl (fun t c => c.edit.after t) ⟨d, #[]⟩

/-- Whichever way an edit ends, a consistent graph is left. -/
theorem Outcome.consistent {x : GraphEdit α} {d : GraphData} {events : Array Event}
    (h : Outcome d events (x ⟨d, events⟩)) (hd : d.Consistent) :
    (x.after ⟨d, events⟩).value.Consistent := by
  rcases h with ⟨f, heq⟩ | ⟨a, d', events', heq, hd'⟩
  · rw [Edit.after_of_error heq]
    exact hd
  · rw [Edit.after_of_ok heq]
    exact hd'

/-- Every call keeps a graph consistent. -/
theorem Consistent.call {t : Tracked GraphData} (h : t.value.Consistent) (c : Call) :
    (c.edit.after t).value.Consistent := by
  obtain ⟨d, events⟩ := t
  cases c with
  | addNode r =>
    rw [Call.edit, Edit.after_discard]
    exact (h.addNode r events).consistent h
  | addEdge source target width color =>
    rw [Call.edit, Edit.after_discard]
    exact (h.addEdge source target width color events).consistent h
  | moveNode slot pos => exact (h.moveNode slot pos events).consistent h
  | updateNode slot f => exact (h.updateNode slot f events).consistent h
  | setHighlighted k slot on => exact (h.setHighlighted k slot on events).consistent h
  | removeEdge slot => exact (h.removeEdge slot events).consistent h
  | removeNode slot => exact (h.removeNode slot events).consistent h
  | attributes k f => exact (h.onAttributes k f events).consistent h
  | flush => exact (h.flush events).consistent h

/-- A graph starts out empty, with configurations that its stores accept. -/
theorem new_eq_ok_iff {config : GraphConfig} {d : GraphData} :
    GraphData.new config = .ok d ↔ config.Valid ∧
      d = { nodes := { config := config.nodes }, edges := { config := config.edges } } := by
  constructor
  · intro h
    rw [GraphData.new] at h
    cases hn : (Store.new config.nodes : Except Fault NodeStore) with
    | error f =>
      rw [hn] at h
      cases h
    | ok nodes =>
      cases he : (Store.new config.edges : Except Fault EdgeStore) with
      | error f =>
        rw [hn, he] at h
        cases h
      | ok edges =>
        rw [hn, he] at h
        cases h
        obtain ⟨hvn, rfl⟩ := Store.new_eq_ok_iff.1 hn
        obtain ⟨hve, rfl⟩ := Store.new_eq_ok_iff.1 he
        exact ⟨⟨hvn, hve⟩, rfl⟩
  · rintro ⟨hv, rfl⟩
    rw [GraphData.new, Store.new_eq_ok_iff.2 ⟨hv.1, rfl⟩, Store.new_eq_ok_iff.2 ⟨hv.2, rfl⟩]
    rfl

/-- A new graph has no elements that could contradict each other. -/
theorem consistent_new {config : GraphConfig} {d : GraphData} (h : GraphData.new config = .ok d) :
    d.Consistent := by
  obtain ⟨hv, rfl⟩ := new_eq_ok_iff.1 h
  have hnodes : ({ config := config.nodes } : NodeStore).WellFormed := Store.wellFormed_empty hv.1
  have hedges : ({ config := config.edges } : EdgeStore).WellFormed := Store.wellFormed_empty hv.2
  refine ⟨hnodes, hedges, ?_⟩
  have htop : (GraphData.mk { config := config.nodes } { config := config.edges } {} {}).topology
      = ⟨fun _ => False, fun _ => False, fun _ => default, fun _ => []⟩ := by
    refine Topology.ext ?_ ?_ rfl rfl
    · funext n
      simp [topology, Store.isLive]
    · funext e
      simp [topology, Store.isLive]
  rw [htop]
  exact Topology.linked_empty

/-- What every call keeps holds after any calls. -/
theorem run_induction {P : Tracked GraphData → Prop} {d : GraphData} (h : P ⟨d, #[]⟩)
    (hcall : ∀ t (c : Call), P t → P (c.edit.after t)) (calls : List Call) : P (run d calls) := by
  have hgo : ∀ (calls : List Call) (t : Tracked GraphData), P t →
      P (calls.foldl (fun t c => c.edit.after t) t) := by
    intro calls
    induction calls with
    | nil => exact fun _ ht => ht
    | cons c calls ih => exact fun t ht => ih _ (hcall t c ht)
  exact hgo calls ⟨d, #[]⟩ h

/-- Every graph that calls can lead to is consistent. -/
theorem consistent_run {d : GraphData} (h : d.Consistent) (calls : List Call) :
    (run d calls).value.Consistent :=
  run_induction (P := fun t => t.value.Consistent) h (fun _ c ht => ht.call c) calls

/-- After any calls on a new graph, live edges end at live nodes, a live node lists exactly the live
edges that meet it, and no list names an edge twice. -/
theorem adjacency_sound {config : GraphConfig} {d₀ : GraphData} (hnew : GraphData.new config = .ok d₀)
    (calls : List Call) :
    (∀ e, (run d₀ calls).value.edges.isLive e = true →
      ∃ ends, (run d₀ calls).value.edges.data e = .ok ends ∧
        (run d₀ calls).value.nodes.isLive ends.source = true ∧
        (run d₀ calls).value.nodes.isLive ends.target = true) ∧
    (∀ n, (run d₀ calls).value.nodes.isLive n = true →
      ∃ data, (run d₀ calls).value.nodes.data n = .ok data ∧
        ∀ e, e ∈ data.adjacent ↔ (run d₀ calls).value.edges.isLive e = true ∧
          ∃ ends, (run d₀ calls).value.edges.data e = .ok ends ∧
            (ends.source = n ∨ ends.target = n)) ∧
    ∀ n data, (run d₀ calls).value.nodes.data n = .ok data → data.adjacent.Nodup := by
  have h := consistent_run (consistent_new hnew) calls
  -- only the consistency of the last graph counts, not how it came about
  generalize (run d₀ calls).value = d at h
  refine ⟨fun e he => ?_, fun n hn => ?_, fun n data hdata => ?_⟩
  · have hdata := h.edges.data_eq (h.edge_lt he)
    have hends := h.linked.node_of_meets e he
    exact ⟨_, hdata, hends _ (.inl rfl), hends _ (.inr rfl)⟩
  · refine ⟨_, h.nodes.data_eq (h.node_lt hn), fun e => ?_⟩
    have hmem := h.linked.mem_adjacent n hn e
    constructor
    · intro hin
      obtain ⟨he, hmeets⟩ := hmem.1 hin
      exact ⟨he, _, h.edges.data_eq (h.edge_lt he), hmeets⟩
    · rintro ⟨he, ends, hends, hmeets⟩
      rw [← Store.dataAt_of_data hends] at hmeets
      exact hmem.2 ⟨he, hmeets⟩
  · rw [← Store.dataAt_of_data hdata]
    exact h.linked.nodup n

/-- Two nodes, a loop and a removal, in the graph of the default configuration. -/
theorem adjacency_sound_loop : ∃ d₀, GraphData.new {} = .ok d₀ ∧
    ∀ n data, (run d₀ [.addNode default, .addNode default, .addEdge 0 0 default default,
      .addEdge 0 1 default default, .removeNode 1]).value.nodes.data n = .ok data →
        data.adjacent.Nodup := by
  have hnew : GraphData.new {} = .ok { nodes := { config := {} }, edges := { config := {} } } := rfl
  exact ⟨_, hnew, (adjacency_sound hnew _).2.2⟩

end GraphData

end LiveGraph
