import LiveGraph.Attribute.Set
import LiveGraph.Error
import LiveGraph.Store.Flush

/-!
# Graph data

The elements of a graph: a node store, an edge store, and the attributes of either kind. A node
knows the edges that start or end at it, an edge knows its end nodes, and an edge's record repeats
the positions of its ends. The edits of this module keep the three in step. An edit first checks
that the elements it addresses are live, and reports an error if one is not.
-/

namespace LiveGraph

/-- The nodes of a graph. -/
abbrev NodeStore := Store NodeRecord NodeData

/-- The edges of a graph. -/
abbrev EdgeStore := Store EdgeRecord EdgeData

/-- The elements of a graph. -/
structure GraphData where
  nodes : NodeStore
  edges : EdgeStore
  nodeAttributes : AttributeSet := {}
  edgeAttributes : AttributeSet := {}

/-- An edit of graph data. -/
abbrev GraphEdit (α : Type) := Edit (Failure GraphError) GraphData α

namespace GraphData

variable {α : Type}

/-- The empty graph. -/
def new (config : GraphConfig) : Except Fault GraphData := do
  return { nodes := ← Store.new config.nodes, edges := ← Store.new config.edges }

/-! ## Parts -/

/-- An edit of the nodes. -/
def onNodes (act : Edit Fault NodeStore α) : GraphEdit α :=
  fun ⟨⟨nodes, edges, na, ea⟩, events⟩ =>
    match act ⟨nodes, events⟩ with
    | .ok a ⟨nodes, events⟩ => .ok a ⟨⟨nodes, edges, na, ea⟩, events⟩
    | .error f ⟨nodes, events⟩ => .error (.fault f) ⟨⟨nodes, edges, na, ea⟩, events⟩

/-- An edit of the edges. -/
def onEdges (act : Edit Fault EdgeStore α) : GraphEdit α :=
  fun ⟨⟨nodes, edges, na, ea⟩, events⟩ =>
    match act ⟨edges, events⟩ with
    | .ok a ⟨edges, events⟩ => .ok a ⟨⟨nodes, edges, na, ea⟩, events⟩
    | .error f ⟨edges, events⟩ => .error (.fault f) ⟨⟨nodes, edges, na, ea⟩, events⟩

/-- The attributes of a kind. -/
def attributes (d : GraphData) : Kind → AttributeSet
  | .node => d.nodeAttributes
  | .edge => d.edgeAttributes

/-- The data with other attributes of a kind. -/
def setAttributes (d : GraphData) (k : Kind) (s : AttributeSet) : GraphData :=
  match k with
  | .node => { d with nodeAttributes := s }
  | .edge => { d with edgeAttributes := s }

/-- Changes the attributes of a kind. -/
def onAttributes (k : Kind) (f : AttributeSet → Except AttributeError AttributeSet) :
    GraphEdit Unit := do
  match f ((← Edit.read).attributes k) with
  | .ok s => Edit.change (·.setAttributes k s)
  | .error e => throw (.error (.ofAttribute e))

/-- The number of nodes. -/
def nodeCount (d : GraphData) : Nat := d.nodes.liveCount

/-- The number of edges. -/
def edgeCount (d : GraphData) : Nat := d.edges.liveCount

/-- The slots of a kind that were ever handed out. -/
def len (d : GraphData) : Kind → Nat
  | .node => d.nodes.len
  | .edge => d.edges.len

/-- The content of the record array of a kind. -/
def snapshot (d : GraphData) : Kind → Except Fault Snapshot
  | .node => d.nodes.snapshot
  | .edge => d.edges.snapshot

/-- Fails unless a slot holds a node. -/
def checkNode (slot : Nat) : GraphEdit Unit := do
  if !(← Edit.read).nodes.isLive slot then
    throw (.error (.other s!"node {slot} does not exist"))

/-- Fails unless a slot holds an edge. -/
def checkEdge (slot : Nat) : GraphEdit Unit := do
  if !(← Edit.read).edges.isLive slot then
    throw (.error (.other s!"edge {slot} does not exist"))

/-- The answer of a reading that may fault. -/
def look (f : GraphData → Except Fault α) : GraphEdit α := do
  match f (← Edit.read) with
  | .ok a => return a
  | .error e => throw (.fault e)

/-! ## Nodes -/

/-- Adds a node, and answers its slot. -/
def addNode (r : NodeRecord) : GraphEdit Nat := do
  let slot ← onNodes (Store.add 1)
  onNodes (Store.modifyData slot fun d => { adjacent := [], generation := d.generation + 1 })
  onNodes (Store.set slot (some (Record.clearDeleted r)))
  return slot

/-- Changes how a node is shown; edges do not follow, and the node stays. -/
def updateNode (slot : Nat) (f : NodeRecord → NodeRecord) : GraphEdit Unit := do
  checkNode slot
  let r ← look (·.nodes.record slot)
  onNodes (Store.set slot (some (Record.clearDeleted (f r))))

/-- Moves one end, or both, of an edge to where its node now is. -/
def dragEdge (node : Nat) (pos : Point) (edge : Nat) : GraphEdit Unit := do
  let ends ← look (·.edges.data edge)
  let r ← look (·.edges.record edge)
  let r := if ends.source = node then { r with source := pos } else r
  let r := if ends.target = node then { r with target := pos } else r
  onEdges (Store.set edge (some r))

/-- Moves a node, and the ends of its edges with it. -/
def moveNode (slot : Nat) (pos : Point) : GraphEdit Unit := do
  checkNode slot
  let r ← look (·.nodes.record slot)
  onNodes (Store.set slot (some { r with pos }))
  let d ← look (·.nodes.data slot)
  d.adjacent.forM (dragEdge slot pos)

/-! ## Edges -/

/-- Adds an edge between two nodes, and answers its slot. -/
def addEdge (source target : Nat) (width : Single) (color : Color) : GraphEdit Nat := do
  checkNode source
  checkNode target
  let a ← look (·.nodes.record source)
  let b ← look (·.nodes.record target)
  let slot ← onEdges (Store.add 1)
  onEdges (Store.modifyData slot fun _ => { source, target })
  onEdges (Store.set slot (some { source := a.pos, target := b.pos, width, color }))
  let list (d : NodeData) : NodeData := { d with adjacent := d.adjacent ++ [slot] }
  onNodes (Store.modifyData source list)
  if target ≠ source then onNodes (Store.modifyData target list)
  return slot

/-- Removes an edge, with its attributes. -/
def removeEdge (slot : Nat) : GraphEdit Unit := do
  checkEdge slot
  let ends ← look (·.edges.data slot)
  let strike (d : NodeData) : NodeData := { d with adjacent := d.adjacent.filter (· != slot) }
  onNodes (Store.modifyData ends.source strike)
  onNodes (Store.modifyData ends.target strike)
  onEdges (Store.set slot none)
  Edit.change fun d => { d with edgeAttributes := d.edgeAttributes.clearSlot slot }

/-- Removes a node and all its edges, with their attributes. -/
def removeNode (slot : Nat) : GraphEdit Unit := do
  checkNode slot
  let d ← look (·.nodes.data slot)
  onNodes (Store.modifyData slot ({ · with adjacent := [] }))
  d.adjacent.forM removeEdge
  onNodes (Store.set slot none)
  Edit.change fun d => { d with nodeAttributes := d.nodeAttributes.clearSlot slot }

/-! ## Both -/

/-- Highlights an element, or takes its highlight away. -/
def setHighlighted (k : Kind) (slot : Nat) (on : Bool) : GraphEdit Unit := do
  match k with
  | .node =>
    checkNode slot
    let r ← look (·.nodes.record slot)
    onNodes (Store.set slot (some (Record.setHighlighted r on)))
  | .edge =>
    checkEdge slot
    let r ← look (·.edges.record slot)
    onEdges (Store.set slot (some (Record.setHighlighted r on)))

/-- Publishes what changed, nodes first. -/
def flush : GraphEdit Unit := do
  onNodes Store.flush
  onEdges Store.flush

end GraphData

end LiveGraph
