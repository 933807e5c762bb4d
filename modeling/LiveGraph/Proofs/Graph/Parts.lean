import LiveGraph.Proofs.Graph.Consistency
import LiveGraph.Proofs.Store.History

/-!
# Calls are made of operations on the stores

A call on a graph reads, edits one of the stores by one of their operations, and exchanges attributes.
What each of these parts keeps is kept by every call, also where the call fails half-way.
-/

namespace LiveGraph

namespace Store

variable {ρ τ α : Type} [Record ρ] [Inhabited τ]

/-- The edit leaves what an operation on the store leaves. -/
def Performs (act : Edit Fault (Store ρ τ) α) : Prop :=
  ∃ o : Operation ρ τ, ∀ t, act.after t = o.edit.after t

/-- Handing out slots is an operation of the store. -/
theorem performs_add (count : Nat) : Performs (add count : Edit Fault (Store ρ τ) Nat) :=
  ⟨.call (.add count), fun t => (Edit.after_discard _ t).symm⟩

/-- Writing a slot is an operation of the store. -/
theorem performs_set (slot : Nat) (value : Option ρ) :
    Performs (set slot value : Edit Fault (Store ρ τ) Unit) :=
  ⟨.call (.set slot value), fun _ => rfl⟩

/-- Changing the data beside a slot is an operation of the store. -/
theorem performs_modifyData (slot : Nat) (f : τ → τ) :
    Performs (modifyData slot f : Edit Fault (Store ρ τ) Unit) :=
  ⟨.amend slot f, fun _ => rfl⟩

theorem performs_flush : Performs (flush : Edit Fault (Store ρ τ) Unit) :=
  ⟨.call .flush, fun _ => rfl⟩

/-- The edit has the outcome of the operation. -/
theorem Performs.outcome {act : Edit Fault (Store ρ τ) α} (h : Performs act) {s : Store ρ τ}
    (hs : s.WellFormed) (events : Array Event) :
    ∃ o d new s', act.after ⟨s, events⟩ = ⟨s', events ++ new.toArray⟩ ∧ Outcome s o d new s' := by
  obtain ⟨o, hafter⟩ := h
  obtain ⟨new, s', heq, hout⟩ := hs.outcome o events
  exact ⟨o, _, new, s', (hafter _).trans heq, hout⟩

end Store

namespace GraphData

/-- The parts of calls keep a property: operations on either store, and changes that leave both stores
alone. -/
structure KeptByParts (P : Tracked GraphData → Prop) : Prop where
  nodes : ∀ {α : Type} {act : Edit Fault NodeStore α}, Store.Performs act →
    Edit.Preserves P (onNodes act)
  edges : ∀ {α : Type} {act : Edit Fault EdgeStore α}, Store.Performs act →
    Edit.Preserves P (onEdges act)
  change : ∀ {f : GraphData → GraphData}, (∀ d, (f d).nodes = d.nodes) →
    (∀ d, (f d).edges = d.edges) → Edit.Preserves P (Edit.change f : GraphEdit Unit)

namespace KeptByParts

variable {P : Tracked GraphData → Prop} (h : KeptByParts P)
include h

/-- Adding a node is a look at the graph and operations of the node store. -/
theorem addNode (r : NodeRecord) : Edit.Preserves P (addNode r) := by
  refine .bind (h.nodes (Store.performs_add 1)) fun slot => ?_
  refine .bind (h.nodes (Store.performs_modifyData slot _)) fun _ => ?_
  refine .bind (h.nodes (Store.performs_set slot _)) fun _ => ?_
  exact .pure slot

theorem updateNode (slot : Nat) (f : NodeRecord → NodeRecord) :
    Edit.Preserves P (updateNode slot f) := by
  refine .bind (preserves_checkNode slot) fun _ => ?_
  refine .bind (preserves_look _) fun r => ?_
  exact h.nodes (Store.performs_set slot _)

theorem dragEdge (node : Nat) (pos : Point) (edge : Nat) :
    Edit.Preserves P (dragEdge node pos edge) := by
  refine .bind (preserves_look _) fun ends => ?_
  refine .bind (preserves_look _) fun r => ?_
  exact h.edges (Store.performs_set edge _)

/-- Moving a node writes its record and those of its edges. -/
theorem moveNode (slot : Nat) (pos : Point) : Edit.Preserves P (moveNode slot pos) := by
  refine .bind (preserves_checkNode slot) fun _ => ?_
  refine .bind (preserves_look _) fun r => ?_
  refine .bind (h.nodes (Store.performs_set slot _)) fun _ => ?_
  refine .bind (preserves_look _) fun d => ?_
  exact .forM (fun e => h.dragEdge slot pos e) d.adjacent

/-- Adding an edge writes to the edge store, and to the lists of both ends. -/
theorem addEdge (source target : Nat) (width : Single) (color : Color) :
    Edit.Preserves P (addEdge source target width color) := by
  refine .bind (preserves_checkNode source) fun _ => ?_
  refine .bind (preserves_checkNode target) fun _ => ?_
  refine .bind (preserves_look _) fun a => ?_
  refine .bind (preserves_look _) fun b => ?_
  refine .bind (h.edges (Store.performs_add 1)) fun slot => ?_
  refine .bind (h.edges (Store.performs_modifyData slot _)) fun _ => ?_
  refine .bind (h.edges (Store.performs_set slot _)) fun _ => ?_
  refine .bind (h.nodes (Store.performs_modifyData source _)) fun _ => ?_
  refine .ite ?_ (.pure slot)
  exact .bind (h.nodes (Store.performs_modifyData target _)) fun _ => .pure slot

/-- Removing an edge writes to the lists of both ends, and to the edge store. -/
theorem removeEdge (slot : Nat) : Edit.Preserves P (removeEdge slot) := by
  refine .bind (preserves_checkEdge slot) fun _ => ?_
  refine .bind (preserves_look _) fun ends => ?_
  refine .bind (h.nodes (Store.performs_modifyData ends.source _)) fun _ => ?_
  refine .bind (h.nodes (Store.performs_modifyData ends.target _)) fun _ => ?_
  refine .bind (h.edges (Store.performs_set slot none)) fun _ => ?_
  refine h.change ?_ ?_
  · exact fun _ => rfl
  · exact fun _ => rfl

/-- Removing a node removes its edges first. -/
theorem removeNode (slot : Nat) : Edit.Preserves P (removeNode slot) := by
  refine .bind (preserves_checkNode slot) fun _ => ?_
  refine .bind (preserves_look _) fun d => ?_
  refine .bind (h.nodes (Store.performs_modifyData slot _)) fun _ => ?_
  refine .bind (.forM (fun e => h.removeEdge e) d.adjacent) fun _ => ?_
  refine .bind (h.nodes (Store.performs_set slot none)) fun _ => ?_
  refine h.change ?_ ?_
  · exact fun _ => rfl
  · exact fun _ => rfl

/-- Highlighting writes one record of one store. -/
theorem setHighlighted (k : Kind) (slot : Nat) (on : Bool) :
    Edit.Preserves P (setHighlighted k slot on) := by
  cases k with
  | node =>
    refine .bind (preserves_checkNode slot) fun _ => ?_
    refine .bind (preserves_look _) fun r => ?_
    exact h.nodes (Store.performs_set slot _)
  | edge =>
    refine .bind (preserves_checkEdge slot) fun _ => ?_
    refine .bind (preserves_look _) fun r => ?_
    exact h.edges (Store.performs_set slot _)

/-- Attributes are beside the stores. -/
theorem onAttributes (k : Kind) (f : AttributeSet → Except AttributeError AttributeSet) :
    Edit.Preserves P (onAttributes k f) := by
  refine .bind .read fun d => ?_
  cases f (d.attributes k) with
  | ok s => exact h.change (fun _ => by cases k <;> rfl) (fun _ => by cases k <;> rfl)
  | error e => exact .throw _

/-- A flush of the graph is one of each store. -/
theorem flush : Edit.Preserves P flush :=
  .bind (h.nodes Store.performs_flush) fun _ => h.edges Store.performs_flush

/-- Every call keeps what its parts keep. -/
theorem call (c : Call) : Edit.Preserves P c.edit := by
  cases c with
  | addNode r =>
    intro t ht
    rw [Call.edit, Edit.after_discard]
    exact h.addNode r t ht
  | addEdge source target width color =>
    intro t ht
    rw [Call.edit, Edit.after_discard]
    exact h.addEdge source target width color t ht
  | moveNode slot pos => exact h.moveNode slot pos
  | updateNode slot f => exact h.updateNode slot f
  | setHighlighted k slot on => exact h.setHighlighted k slot on
  | removeEdge slot => exact h.removeEdge slot
  | removeNode slot => exact h.removeNode slot
  | attributes k f => exact h.onAttributes k f
  | flush => exact h.flush

end KeptByParts

end GraphData

end LiveGraph
