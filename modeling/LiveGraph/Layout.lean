import LiveGraph.Graph.Basic

/-!
# Layout

A force-directed layout. In one relaxation every pair of nodes is pushed apart, the ends of every
edge are pulled towards a rest length, and each node moves by the sum of the forces on it, by a
bounded distance:

* two nodes at distance `d` repel each other with force `repulsion / d²`;
* an edge of length `d` pulls with force `spring * (d - springLength)`.

A layout is a long task that relaxes, publishes the changes and yields, over and over.
-/

namespace LiveGraph

/-- The constants of a layout. -/
structure LayoutParams where
  /-- The rest length of an edge. -/
  springLength : Single := ⟨0x41a00000⟩
  spring : Single := ⟨0x3d4ccccd⟩
  repulsion : Single := ⟨0x43c80000⟩
  /-- The largest distance that a node moves in one relaxation. -/
  maxStep : Single := ⟨0x40a00000⟩
deriving DecidableEq, Repr, Inhabited

/-- How many relaxations a layout makes unless it is told otherwise. -/
def defaultIterations : Nat := 100

/-- What came of a layout. -/
structure LayoutReport where
  /-- The relaxations made. -/
  iterations : Nat := 0
  /-- It was asked to stop. -/
  cancelled : Bool := false
  /-- The distance that the nodes moved in the last relaxation, summed. -/
  displacement : Single := .zero
deriving DecidableEq, Repr, Inhabited

/-! ## Vectors -/

namespace Point

instance : Add Point := ⟨fun p q => ⟨p.x + q.x, p.y + q.y⟩⟩

instance : Sub Point := ⟨fun p q => ⟨p.x - q.x, p.y - q.y⟩⟩

/-- The vector `p` times `f`. -/
def scale (p : Point) (f : Single) : Point := ⟨p.x * f, p.y * f⟩

/-- The length of a vector. -/
def norm (p : Point) : Single := Single.hypot p.x p.y

/-- The zero vector. -/
def zero : Point := ⟨.zero, .zero⟩

end Point

namespace Layout

/-- The distance along a vector, which counts as 0.1 at least. -/
def distance (d : Point) : Single := d.norm.max ⟨0x3dcccccd⟩

/-- The force on each node, by slot. -/
abbrev Forces := Array Point

namespace Forces

/-- Adds `v` to the force on one slot, then takes it from the force on another. -/
def exchange (force : Forces) (plus minus : Nat) (v : Point) : Forces :=
  (force.modify plus (v + ·)).modify minus (· - v)

end Forces

/-- A node where it stands. -/
structure Body where
  slot : Nat
  pos : Point

/-- The nodes of a graph in slot order. -/
def bodies (d : GraphData) : List Body := d.nodes.live.map fun (slot, r) => ⟨slot, r.pos⟩

/-- The position of the node in a slot, if there is one. -/
def position? (d : GraphData) (slot : Nat) : Option Point :=
  if d.nodes.isLive slot then (d.nodes.record slot).toOption.map (·.pos) else none

/-- Pushes two nodes apart. -/
def repel (params : LayoutParams) (a : Body) (force : Forces) (b : Body) : Forces :=
  let d := a.pos - b.pos
  let dist := distance d
  force.exchange a.slot b.slot (d.scale (params.repulsion / (dist * dist * dist)))

/-- Pushes all nodes apart, each with every later one. -/
def repelAll (params : LayoutParams) : List Body → Forces → Forces
  | [], force => force
  | a :: rest, force => repelAll params rest (rest.foldl (repel params a) force)

/-- Pulls the ends of an edge together, or apart if the edge is too short. -/
def pull (params : LayoutParams) (d : GraphData) (force : Forces) (edge : Nat) : Forces :=
  match d.edges.data edge with
  | .error _ => force
  | .ok ends =>
    match position? d ends.source, position? d ends.target with
    | some p, some q =>
      let v := q - p
      let dist := distance v
      let f := params.spring * (dist - params.springLength) / dist
      force.exchange ends.source ends.target (v.scale f)
    | _, _ => force

/-- The forces in a graph. -/
def forces (params : LayoutParams) (d : GraphData) : Forces :=
  let start := Array.replicate d.nodes.len Point.zero
  (d.edges.live.map (·.1)).foldl (pull params d) (repelAll params (bodies d) start)

/-- Moves a node by the force on it, and answers the distance; a negligible force moves nothing. -/
def displace (params : LayoutParams) (force : Forces) (b : Body) : GraphEdit (Option Single) := do
  let f := force.getD b.slot .zero
  let len := f.norm
  if len.le .epsilon then return none
  let scale := len.min params.maxStep / len
  GraphData.moveNode b.slot (b.pos + f.scale scale)
  return some (len * scale)

/-- Relaxes a graph once, and answers the distance that its nodes moved, summed. -/
def relax (params : LayoutParams) : GraphEdit Single := do
  let d ← Edit.read
  let nodes := bodies d
  let force := forces params d
  nodes.foldlM (fun total b => do
    match ← displace params force b with
    | some distance => return total + distance
    | none => return total) Single.zero

variable {ω : Type}

/-- Relaxes a graph so many times more, unless the task is asked to stop. -/
def iterate (env : Surroundings ω) (params : LayoutParams) :
    Nat → LayoutReport → WorldM ω LayoutReport
  | 0, report => return report
  | n + 1, report => do
    let displacement ← World.edit env (relax params)
    World.edit env GraphData.flush
    let report := { report with iterations := report.iterations + 1, displacement }
    if ← World.yield env then iterate env params n report
    else return { report with cancelled := true }

/-- The name of the task. -/
def taskName : String := "layout"

/-- Lays out a graph, as a long task. -/
def run (env : Surroundings ω) (params : LayoutParams) (iterations : Nat) :
    WorldM ω LayoutReport :=
  World.duringTask env taskName (iterate env params iterations {})

end Layout

end LiveGraph
