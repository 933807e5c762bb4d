import LiveGraph.Graph.Data
import LiveGraph.Random.Sample

/-!
# Random graphs

Nodes at random places with a text attribute `label`, and edges between random pairs of them with a
float attribute `weight`. A pair of equal nodes makes no edge. Attribute tables are taken to have room
for whatever is put into them.
-/

namespace LiveGraph

namespace RandomGraph

variable {γ α : Type} [Sampler γ]

/-- Draws while a graph is edited. -/
abbrev Build (γ α : Type) := StateT γ (EStateM (Failure GraphError) (Tracked GraphData)) α

/-- A draw, as a part of building. -/
def draw (d : Draw γ α) : Build γ α := modifyGet d

/-- A coordinate between -100 and 100. -/
def coordinate : Draw γ Single := Sampler.single ⟨0xc2c80000⟩ ⟨0x42c80000⟩

/-- A node of radius 2, at a random place and with a random colour. -/
def node : Draw γ NodeRecord := do
  let x ← coordinate
  let y ← coordinate
  let red ← Sampler.byte
  let green ← Sampler.byte
  let blue ← Sampler.byte
  return { pos := ⟨x, y⟩, radius := ⟨0x40000000⟩, fill := ⟨red, green, blue⟩ }

/-- Adds the node of a number, and answers its slot. -/
def addNode (i : Nat) : Build γ Nat := do
  let r ← draw node
  let slot ← GraphData.addNode r
  GraphData.onAttributes .node (·.set "label" slot (.text s!"n{i}"))
  return slot

/-- Adds an edge between two of the nodes, unless they are equal. -/
def addEdge (slots : Array Nat) : Build γ Unit := do
  let i ← draw (Sampler.index slots.size)
  let j ← draw (Sampler.index slots.size)
  let source := slots.getD i 0
  let target := slots.getD j 0
  if source ≠ target then
    let edge ← GraphData.addEdge source target ⟨0x3f000000⟩ ⟨128, 128, 128⟩
    let weight ← draw Sampler.fraction
    GraphData.onAttributes .edge (·.set "weight" edge (.float weight))

/-- Repeats a step so many times more. -/
def repeatBuild (act : Build γ Unit) : Nat → Build γ Unit
  | 0 => return
  | n + 1 => do
    act
    repeatBuild act n

/-- Adds so many nodes more from a number on, and answers all slots. -/
def addNodes : Nat → Nat → Array Nat → Build γ (Array Nat)
  | 0, _, slots => return slots
  | n + 1, i, slots => do
    let slot ← addNode i
    addNodes n (i + 1) (slots.push slot)

/-- Bytes in the note of a slot. -/
def slotWidth : Nat := 8

/-- Adds nodes, and tries as many edges as given; with fewer than two nodes there are none. -/
def build (nodes edges : Nat) : Build γ Unit := do
  GraphData.onAttributes .node (·.create "label" .text)
  GraphData.onAttributes .edge (·.create "weight" .float)
  -- the slots are noted in one array, which has to be within the limit on arrays
  if !fitsArray nodes slotWidth then throw (.fault .overflow)
  let slots ← addNodes nodes 0 #[]
  if 2 ≤ slots.size then repeatBuild (addEdge slots) edges

end RandomGraph

/-- Fills a graph at random, and answers what is left of the source of the draws. -/
def GraphData.addRandom {γ : Type} [Sampler γ] (nodes edges : Nat) (source : γ) :
    GraphEdit γ := do
  let (_, source) ← (RandomGraph.build nodes edges).run source
  return source

end LiveGraph
