import LiveGraph.Proofs.Graph.Ownership
import LiveGraph.Proofs.Store.Safety

/-!
# Calls are all or nothing

A call that addresses elements looks them up before it changes anything. If one is missing, the call is
refused, and the graph and its events stay as they were. If all are there, nothing that follows can go
wrong: `GraphData.Checked` has the calls once more with every position checked, and on a consistent graph
they do the same. Only an edge for which there is no room makes a call abort, again without a trace.
-/

namespace LiveGraph

namespace Edit

variable {ε σ α β : Type}

/-- Where the property holds, the first edit does what the second one does, and that keeps the property. -/
structure Mirrors (P : Tracked σ → Prop) (x y : Edit ε σ α) : Prop where
  eq : ∀ t, P t → x t = y t
  preserves : Preserves P y

namespace Mirrors

variable {P : Tracked σ → Prop}

/-- An edit mirrors itself if it keeps the invariant. -/
theorem of_preserves {x : Edit ε σ α} (hx : Preserves P x) : Mirrors P x x := ⟨fun _ _ => rfl, hx⟩

/-- Edits that mirror each other can be put one after the other: the first leaves the invariant for the
second. -/
theorem bind {x y : Edit ε σ α} {f g : α → Edit ε σ β} (hx : Mirrors P x y)
    (hf : ∀ a, Mirrors P (f a) (g a)) : Mirrors P (x >>= f) (y >>= g) := by
  refine ⟨fun t ht => ?_, hx.preserves.bind fun a => (hf a).preserves⟩
  have hkept := hx.preserves t ht
  rw [bind_congr_left (hx.eq t ht) f]
  cases hy : y t with
  | ok a t' =>
    rw [after_of_ok hy] at hkept
    rw [bind_of_ok hy, bind_of_ok hy, (hf a).eq t' hkept]
  | error e t' => rw [bind_of_error hy, bind_of_error hy]

theorem ite {c : Prop} [Decidable c] {x x' y y' : Edit ε σ α} (hx : Mirrors P x y)
    (hx' : Mirrors P x' y') : Mirrors P (if c then x else x') (if c then y else y') := by
  split
  · exact hx
  · exact hx'

theorem forM {f g : β → Edit ε σ Unit} (hf : ∀ b, Mirrors P (f b) (g b)) (bs : List β) :
    Mirrors P (bs.forM f) (bs.forM g) := by
  induction bs with
  | nil => exact of_preserves (.pure ())
  | cons b bs ih => exact (hf b).bind fun _ => ih

protected theorem discard {x y : Edit ε σ α} (h : Mirrors P x y) :
    Mirrors P (Functor.discard x) (Functor.discard y) := by
  refine ⟨fun t ht => ?_, fun t ht => ?_⟩
  · show EStateM.map _ x t = EStateM.map _ y t
    unfold EStateM.map
    rw [h.eq t ht]
  · rw [after_discard]
    exact h.preserves t ht

end Mirrors

end Edit

/-- A single slot is refused only if there is no room for it. -/
theorem Store.WellFormed.addFault_one {ρ τ : Type} [Record ρ] [Inhabited τ] {s : Store ρ τ}
    (h : s.WellFormed) {events : Array Event} {f : Fault} {t : Tracked (Store ρ τ)}
    (heq : add 1 ⟨s, events⟩ = .error f t) :
    arrayLimit ≤ s.grownCapacity (s.len + 1) * Record.sideSize ρ ∧ f = .overflow := by
  rcases h.addFault heq with ⟨hzero, -⟩ | ⟨hlimit, -⟩ | hfull
  · cases hzero
  · -- something is kept beside every slot in use, so there are far fewer of them than there are sizes
    have hlimits : arrayLimit < sizeLimit := by decide
    have hlen := h.len_le
    have hfits := h.fits.lt_arrayLimit
    omega
  · exact hfull

namespace GraphData

variable {α : Type}

/-- The error for an element that is not there. -/
def missing : Kind → Nat → GraphError
  | .node, slot => .other s!"node {slot} does not exist"
  | .edge, slot => .other s!"edge {slot} does not exist"

/-! ## Checked calls -/

namespace Checked

/-- Whether a slot holds an element of a kind. -/
def isLive (k : Kind) (slot : Nat) (d : GraphData) : Except Fault Bool :=
  match k with
  | .node => Store.Checked.isLive d.nodes slot
  | .edge => Store.Checked.isLive d.edges slot

/-- Fails unless a slot holds an element of a kind. -/
def require (k : Kind) (slot : Nat) : GraphEdit Unit := do
  if !(← look (isLive k slot)) then throw (.error (missing k slot))

/-- Adds a node, and answers its slot. -/
def addNode (r : NodeRecord) : GraphEdit Nat := do
  let slot ← onNodes (Store.Checked.add 1)
  onNodes (Store.modifyData slot fun d => { adjacent := [], generation := d.generation + 1 })
  onNodes (Store.Checked.set slot (some (Record.clearDeleted r)))
  return slot

/-- Changes how a node is shown. -/
def updateNode (slot : Nat) (f : NodeRecord → NodeRecord) : GraphEdit Unit := do
  require .node slot
  let r ← look (·.nodes.record slot)
  onNodes (Store.Checked.set slot (some (Record.clearDeleted (f r))))

/-- Moves one end, or both, of an edge to where its node now is. -/
def dragEdge (node : Nat) (pos : Point) (edge : Nat) : GraphEdit Unit := do
  let ends ← look (·.edges.data edge)
  let r ← look (·.edges.record edge)
  let r := if ends.source = node then { r with source := pos } else r
  let r := if ends.target = node then { r with target := pos } else r
  onEdges (Store.Checked.set edge (some r))

/-- Moves a node, and the ends of its edges with it. -/
def moveNode (slot : Nat) (pos : Point) : GraphEdit Unit := do
  require .node slot
  let r ← look (·.nodes.record slot)
  onNodes (Store.Checked.set slot (some { r with pos }))
  let d ← look (·.nodes.data slot)
  d.adjacent.forM (dragEdge slot pos)

/-- Adds an edge between two nodes, and answers its slot. -/
def addEdge (source target : Nat) (width : Single) (color : Color) : GraphEdit Nat := do
  require .node source
  require .node target
  let a ← look (·.nodes.record source)
  let b ← look (·.nodes.record target)
  let slot ← onEdges (Store.Checked.add 1)
  onEdges (Store.modifyData slot fun _ => { source, target })
  onEdges (Store.Checked.set slot (some { source := a.pos, target := b.pos, width, color }))
  let list (d : NodeData) : NodeData := { d with adjacent := d.adjacent ++ [slot] }
  onNodes (Store.modifyData source list)
  if target ≠ source then onNodes (Store.modifyData target list)
  return slot

/-- Removes an edge, with its attributes. -/
def removeEdge (slot : Nat) : GraphEdit Unit := do
  require .edge slot
  let ends ← look (·.edges.data slot)
  let strike (d : NodeData) : NodeData := { d with adjacent := d.adjacent.filter (· != slot) }
  onNodes (Store.modifyData ends.source strike)
  onNodes (Store.modifyData ends.target strike)
  onEdges (Store.Checked.set slot none)
  Edit.change fun d => { d with edgeAttributes := d.edgeAttributes.clearSlot slot }

/-- Removes a node and all its edges, with their attributes. -/
def removeNode (slot : Nat) : GraphEdit Unit := do
  require .node slot
  let d ← look (·.nodes.data slot)
  onNodes (Store.modifyData slot ({ · with adjacent := [] }))
  d.adjacent.forM removeEdge
  onNodes (Store.Checked.set slot none)
  Edit.change fun d => { d with nodeAttributes := d.nodeAttributes.clearSlot slot }

/-- Highlights an element, or takes its highlight away. -/
def setHighlighted (k : Kind) (slot : Nat) (on : Bool) : GraphEdit Unit := do
  match k with
  | .node =>
    require .node slot
    let r ← look (·.nodes.record slot)
    onNodes (Store.Checked.set slot (some (Record.setHighlighted r on)))
  | .edge =>
    require .edge slot
    let r ← look (·.edges.record slot)
    onEdges (Store.Checked.set slot (some (Record.setHighlighted r on)))

/-- Publishes what changed, nodes first. -/
def flush : GraphEdit Unit := do
  onNodes Store.Checked.flush
  onEdges Store.Checked.flush

end Checked

/-- What the call does, with every step checked. -/
def Call.checked : Call → GraphEdit Unit
  | addNode r => discard (Checked.addNode r)
  | addEdge source target width color => discard (Checked.addEdge source target width color)
  | moveNode slot pos => Checked.moveNode slot pos
  | updateNode slot f => Checked.updateNode slot f
  | setHighlighted k slot on => Checked.setHighlighted k slot on
  | removeEdge slot => Checked.removeEdge slot
  | removeNode slot => Checked.removeNode slot
  | attributes k f => onAttributes k f
  | flush => Checked.flush

/-! ## No check fails -/

/-- Both stores are well-formed. -/
def Sound (t : Tracked GraphData) : Prop := t.value.nodes.WellFormed ∧ t.value.edges.WellFormed

/-- What is the same on well-formed node stores is the same on the nodes of a sound graph. -/
theorem mirrors_onNodes {x y : Edit Fault NodeStore α} (hy : Store.Stepping y)
    (h : ∀ {s : NodeStore}, s.WellFormed → ∀ events, x ⟨s, events⟩ = y ⟨s, events⟩) :
    Edit.Mirrors Sound (onNodes x) (onNodes y) := by
  refine ⟨?_, ?_⟩
  · rintro ⟨d, events⟩ ht
    have hx : x ⟨d.nodes, events⟩ = y ⟨d.nodes, events⟩ := h ht.1 events
    simp only [onNodes, hx]
  · rintro ⟨d, events⟩ ht
    obtain ⟨new, nodes, hafter, hstep⟩ := hy d.nodes events ht.1
    rw [after_onNodes, hafter]
    exact ⟨hstep.wellFormed ht.1, ht.2⟩

/-- What is the same on well-formed edge stores is the same on the edges of a sound graph. -/
theorem mirrors_onEdges {x y : Edit Fault EdgeStore α} (hy : Store.Stepping y)
    (h : ∀ {s : EdgeStore}, s.WellFormed → ∀ events, x ⟨s, events⟩ = y ⟨s, events⟩) :
    Edit.Mirrors Sound (onEdges x) (onEdges y) := by
  refine ⟨?_, ?_⟩
  · rintro ⟨d, events⟩ ht
    have hx : x ⟨d.edges, events⟩ = y ⟨d.edges, events⟩ := h ht.2 events
    simp only [onEdges, hx]
  · rintro ⟨d, events⟩ ht
    obtain ⟨new, edges, hafter, hstep⟩ := hy d.edges events ht.2
    rw [after_onEdges, hafter]
    exact ⟨ht.1, hstep.wellFormed ht.2⟩

section

variable (slot : Nat)

/-- A slot for a node is handed out in the same way. -/
theorem mirrors_addNodes :
    Edit.Mirrors Sound (onNodes (Store.Checked.add 1)) (onNodes (Store.add 1)) :=
  mirrors_onNodes (Store.stepping_add 1) fun h => Store.Checked.add_eq h 1

theorem mirrors_addEdges :
    Edit.Mirrors Sound (onEdges (Store.Checked.add 1)) (onEdges (Store.add 1)) :=
  mirrors_onEdges (Store.stepping_add 1) fun h => Store.Checked.add_eq h 1

/-- The record of a node is written in the same way. -/
theorem mirrors_setNode (value : Option NodeRecord) :
    Edit.Mirrors Sound (onNodes (Store.Checked.set slot value)) (onNodes (Store.set slot value)) :=
  mirrors_onNodes (Store.stepping_set slot value) fun h => Store.Checked.set_eq h slot value

theorem mirrors_setEdge (value : Option EdgeRecord) :
    Edit.Mirrors Sound (onEdges (Store.Checked.set slot value)) (onEdges (Store.set slot value)) :=
  mirrors_onEdges (Store.stepping_set slot value) fun h => Store.Checked.set_eq h slot value

/-- The data beside a node is changed by the same edit in both. -/
theorem mirrors_modifyNode (f : NodeData → NodeData) :
    Edit.Mirrors Sound (onNodes (Store.modifyData slot f)) (onNodes (Store.modifyData slot f)) :=
  mirrors_onNodes (Store.stepping_modifyData slot f) fun _ _ => rfl

theorem mirrors_modifyEdge (f : EdgeData → EdgeData) :
    Edit.Mirrors Sound (onEdges (Store.modifyData slot f)) (onEdges (Store.modifyData slot f)) :=
  mirrors_onEdges (Store.stepping_modifyData slot f) fun _ _ => rfl

/-- What only looks at the graph stands in both as it is. -/
theorem mirrors_look (f : GraphData → Except Fault α) : Edit.Mirrors Sound (look f) (look f) :=
  .of_preserves (preserves_look f)

/-- The check for a live node reads its flags, which are there. -/
theorem mirrors_checkNode : Edit.Mirrors Sound (Checked.require .node slot) (checkNode slot) := by
  refine ⟨?_, preserves_checkNode slot⟩
  rintro ⟨d, events⟩ ht
  have hlive : Checked.isLive .node slot d = .ok (d.nodes.isLive slot) :=
    Store.Checked.isLive_eq ht.1 slot
  rw [Checked.require, Edit.bind_of_ok (look_of_ok hlive events), checkNode, Edit.read_bind]
  rfl

/-- The check for a live edge reads its flags, which are there. -/
theorem mirrors_checkEdge : Edit.Mirrors Sound (Checked.require .edge slot) (checkEdge slot) := by
  refine ⟨?_, preserves_checkEdge slot⟩
  rintro ⟨d, events⟩ ht
  have hlive : Checked.isLive .edge slot d = .ok (d.edges.isLive slot) :=
    Store.Checked.isLive_eq ht.2 slot
  rw [Checked.require, Edit.bind_of_ok (look_of_ok hlive events), checkEdge, Edit.read_bind]
  rfl

/-- A node is added in the same way. -/
theorem mirrors_addNode (r : NodeRecord) : Edit.Mirrors Sound (Checked.addNode r) (addNode r) := by
  refine mirrors_addNodes.bind fun slot => ?_
  refine (mirrors_modifyNode slot _).bind fun _ => ?_
  refine (mirrors_setNode slot _).bind fun _ => ?_
  exact .of_preserves (.pure slot)

theorem mirrors_updateNode (f : NodeRecord → NodeRecord) :
    Edit.Mirrors Sound (Checked.updateNode slot f) (updateNode slot f) := by
  refine (mirrors_checkNode slot).bind fun _ => ?_
  refine (mirrors_look _).bind fun r => ?_
  exact mirrors_setNode slot _

theorem mirrors_dragEdge (pos : Point) (edge : Nat) :
    Edit.Mirrors Sound (Checked.dragEdge slot pos edge) (dragEdge slot pos edge) := by
  refine (mirrors_look _).bind fun ends => ?_
  refine (mirrors_look _).bind fun r => ?_
  exact mirrors_setEdge edge _

/-- A node is moved in the same way, with all its edges. -/
theorem mirrors_moveNode (pos : Point) :
    Edit.Mirrors Sound (Checked.moveNode slot pos) (moveNode slot pos) := by
  refine (mirrors_checkNode slot).bind fun _ => ?_
  refine (mirrors_look _).bind fun r => ?_
  refine (mirrors_setNode slot _).bind fun _ => ?_
  refine (mirrors_look _).bind fun d => ?_
  exact .forM (mirrors_dragEdge slot pos) d.adjacent

/-- An edge is added in the same way: both ends are checked, and both list it. -/
theorem mirrors_addEdge (source target : Nat) (width : Single) (color : Color) :
    Edit.Mirrors Sound (Checked.addEdge source target width color)
      (addEdge source target width color) := by
  refine (mirrors_checkNode source).bind fun _ => ?_
  refine (mirrors_checkNode target).bind fun _ => ?_
  refine (mirrors_look _).bind fun a => ?_
  refine (mirrors_look _).bind fun b => ?_
  refine mirrors_addEdges.bind fun slot => ?_
  refine (mirrors_modifyEdge slot _).bind fun _ => ?_
  refine (mirrors_setEdge slot _).bind fun _ => ?_
  refine (mirrors_modifyNode source _).bind fun _ => ?_
  refine .ite ?_ (.of_preserves (.pure slot))
  exact (mirrors_modifyNode target _).bind fun _ => .of_preserves (.pure slot)

/-- An edge is removed in the same way. -/
theorem mirrors_removeEdge : Edit.Mirrors Sound (Checked.removeEdge slot) (removeEdge slot) := by
  refine (mirrors_checkEdge slot).bind fun _ => ?_
  refine (mirrors_look _).bind fun ends => ?_
  refine (mirrors_modifyNode ends.source _).bind fun _ => ?_
  refine (mirrors_modifyNode ends.target _).bind fun _ => ?_
  refine (mirrors_setEdge slot none).bind fun _ => ?_
  exact .of_preserves fun _ ht => ht

/-- A node is removed in the same way, after all its edges. -/
theorem mirrors_removeNode : Edit.Mirrors Sound (Checked.removeNode slot) (removeNode slot) := by
  refine (mirrors_checkNode slot).bind fun _ => ?_
  refine (mirrors_look _).bind fun d => ?_
  refine (mirrors_modifyNode slot _).bind fun _ => ?_
  refine (Edit.Mirrors.forM mirrors_removeEdge d.adjacent).bind fun _ => ?_
  refine (mirrors_setNode slot none).bind fun _ => ?_
  exact .of_preserves fun _ ht => ht

/-- Elements are highlighted in the same way. -/
theorem mirrors_setHighlighted (k : Kind) (on : Bool) :
    Edit.Mirrors Sound (Checked.setHighlighted k slot on) (setHighlighted k slot on) := by
  cases k with
  | node =>
    refine (mirrors_checkNode slot).bind fun _ => ?_
    refine (mirrors_look _).bind fun r => ?_
    exact mirrors_setNode slot _
  | edge =>
    refine (mirrors_checkEdge slot).bind fun _ => ?_
    refine (mirrors_look _).bind fun r => ?_
    exact mirrors_setEdge slot _

/-- Both stores are flushed in the same way. -/
theorem mirrors_flush : Edit.Mirrors Sound Checked.flush flush :=
  (mirrors_onNodes Store.stepping_flush Store.Checked.flush_eq).bind fun _ =>
    mirrors_onEdges Store.stepping_flush Store.Checked.flush_eq

end

/-- On well-formed stores, no check of any call fails. -/
theorem Sound.checked_eq {t : Tracked GraphData} (h : Sound t) (c : Call) : c.checked t = c.edit t := by
  cases c with
  | addNode r => exact (mirrors_addNode r).discard.eq t h
  | addEdge source target width color =>
    exact (mirrors_addEdge source target width color).discard.eq t h
  | moveNode slot pos => exact (mirrors_moveNode slot pos).eq t h
  | updateNode slot f => exact (mirrors_updateNode slot f).eq t h
  | setHighlighted k slot on => exact (mirrors_setHighlighted slot k on).eq t h
  | removeEdge slot => exact (mirrors_removeEdge slot).eq t h
  | removeNode slot => exact (mirrors_removeNode slot).eq t h
  | attributes k f => rfl
  | flush => exact mirrors_flush.eq t h

/-! ## Refusals -/

/-- The elements that a call addresses, in the order in which it looks them up. -/
def Call.addressed : Call → List (Kind × Nat)
  | addEdge source target _ _ => [(.node, source), (.node, target)]
  | moveNode slot _ | updateNode slot _ | removeNode slot => [(.node, slot)]
  | setHighlighted k slot _ => [(k, slot)]
  | removeEdge slot => [(.edge, slot)]
  | addNode _ | attributes _ _ | flush => []

/-- The refusal names the node that is missing. -/
theorem checkNode_missing {d : GraphData} {slot : Nat} (h : d.nodes.isLive slot = false)
    (events : Array Event) :
    checkNode slot ⟨d, events⟩ = .error (.error (missing .node slot)) ⟨d, events⟩ := by
  rw [checkNode, Edit.read_bind, h]
  rfl

/-- The refusal names the edge that is missing. -/
theorem checkEdge_missing {d : GraphData} {slot : Nat} (h : d.edges.isLive slot = false)
    (events : Array Event) :
    checkEdge slot ⟨d, events⟩ = .error (.error (missing .edge slot)) ⟨d, events⟩ := by
  rw [checkEdge, Edit.read_bind, h]
  rfl

/-- A call that addresses a missing element is refused, with the first such element in its error. -/
theorem edit_of_missing {t : Tracked GraphData} {c : Call} {p : Kind × Nat}
    (hp : c.addressed.find? (fun p => !t.value.isLive p.1 p.2) = some p) :
    c.edit t = .error (.error (missing p.1 p.2)) t := by
  obtain ⟨d, events⟩ := t
  have hdead : d.isLive p.1 p.2 = false := by simpa using List.find?_some hp
  have hmem := List.mem_of_find?_eq_some hp
  cases c with
  -- only a new edge addresses two elements; its source is looked at first
  | addEdge source target width color =>
    apply Edit.discard_of_error
    cases hsource : d.nodes.isLive source with
    | false =>
      have hfirst : p = (.node, source) := by simpa [Call.addressed, isLive, hsource] using hp.symm
      rw [hfirst]
      exact Edit.bind_of_error (checkNode_missing hsource events)
    | true =>
      have hsecond : p = (.node, target) := by
        rcases List.mem_cons.1 hmem with rfl | hin
        · rw [isLive, hsource] at hdead
          cases hdead
        · exact List.mem_singleton.1 hin
      rw [hsecond] at hdead ⊢
      rw [addEdge, Edit.bind_of_ok (checkNode_of_live hsource events)]
      exact Edit.bind_of_error (checkNode_missing hdead events)
  | moveNode slot pos =>
    cases List.mem_singleton.1 hmem
    exact Edit.bind_of_error (checkNode_missing hdead events)
  | updateNode slot f =>
    cases List.mem_singleton.1 hmem
    exact Edit.bind_of_error (checkNode_missing hdead events)
  | setHighlighted k slot on =>
    cases List.mem_singleton.1 hmem
    cases k with
    | node => exact Edit.bind_of_error (checkNode_missing hdead events)
    | edge => exact Edit.bind_of_error (checkEdge_missing hdead events)
  | removeEdge slot =>
    cases List.mem_singleton.1 hmem
    exact Edit.bind_of_error (checkEdge_missing hdead events)
  | removeNode slot =>
    cases List.mem_singleton.1 hmem
    exact Edit.bind_of_error (checkNode_missing hdead events)
  -- the other calls address nothing
  | addNode r => exact absurd hmem List.not_mem_nil
  | attributes k f => exact absurd hmem List.not_mem_nil
  | flush => exact absurd hmem List.not_mem_nil

/-! ## Success -/

/-- A further edge would need a larger array beside the records than there can be. -/
def EdgesFull (d : GraphData) : Prop :=
  arrayLimit ≤ d.edges.grownCapacity (d.edges.len + 1) * Record.sideSize EdgeRecord

/-- A call whose elements are all there does its work, unless it adds an edge and there is no room. -/
theorem Consistent.edit_of_live {t : Tracked GraphData} (h : t.value.Consistent) {c : Call}
    (hc : c.addressed ≠ []) (hlive : ∀ p ∈ c.addressed, t.value.isLive p.1 p.2 = true) :
    (∃ t', c.edit t = .ok () t') ∨
      c.edit t = .error (.fault .overflow) t ∧ t.value.EdgesFull ∧
        ∃ source target width color, c = .addEdge source target width color := by
  obtain ⟨d, events⟩ := t
  cases c with
  | addEdge source target width color =>
    have hsource := hlive (.node, source) (by simp [Call.addressed])
    have htarget := hlive (.node, target) (by simp [Call.addressed])
    -- a new edge is the only call that needs room
    rcases h.addEdge_of_live hsource htarget width color events with
      ⟨f, hadd, heq⟩ | ⟨slot, nodes, edges, events', heq, -⟩
    · obtain ⟨hfull, rfl⟩ := h.edges.addFault_one hadd
      exact .inr ⟨Edit.discard_of_error heq, hfull, source, target, width, color, rfl⟩
    · exact .inl ⟨_, Edit.discard_of_ok heq⟩
  | moveNode slot pos =>
    obtain ⟨nodes, edges, heq, -⟩ := h.moveNode_of_live (hlive _ List.mem_cons_self) pos events
    exact .inl ⟨_, heq⟩
  | updateNode slot f =>
    obtain ⟨nodes, heq, -⟩ := h.updateNode_of_live (hlive _ List.mem_cons_self) f events
    exact .inl ⟨_, heq⟩
  | setHighlighted k slot on =>
    have hslot := hlive (k, slot) List.mem_cons_self
    cases k with
    | node =>
      obtain ⟨nodes, heq, -⟩ := h.highlightNode_of_live hslot on events
      exact .inl ⟨_, heq⟩
    | edge =>
      obtain ⟨edges, heq, -⟩ := h.highlightEdge_of_live hslot on events
      exact .inl ⟨_, heq⟩
  | removeEdge slot =>
    obtain ⟨d', heq, -⟩ := h.removeEdge_of_live (hlive _ List.mem_cons_self) events
    exact .inl ⟨_, heq⟩
  | removeNode slot =>
    obtain ⟨d₁, nodes, heq, -⟩ := h.removeNode_of_live (hlive _ List.mem_cons_self) events
    exact .inl ⟨_, heq⟩
  | addNode r => exact absurd rfl hc
  | attributes k f => exact absurd rfl hc
  | flush => exact absurd rfl hc

/-- On every graph that calls can lead to, a call that addresses elements reports an error if and only if
one of them is not live. A call that reports an error or aborts leaves the graph and its events as they
were. No check of a position fails on the way, and only an edge for which there is no room makes a call
abort. -/
theorem calls_all_or_nothing {config : GraphConfig} {d₀ : GraphData}
    (hnew : GraphData.new config = .ok d₀) (calls : List Call) {c : Call} (hc : c.addressed ≠ []) :
    ((∃ e t', c.edit (run d₀ calls) = .error (.error e) t') ↔
      ∃ p ∈ c.addressed, (run d₀ calls).value.isLive p.1 p.2 = false) ∧
    (∀ f t', c.edit (run d₀ calls) = .error f t' → t' = run d₀ calls) ∧
    c.checked (run d₀ calls) = c.edit (run d₀ calls) ∧
    ∀ f t', c.edit (run d₀ calls) = .error (.fault f) t' →
      f = .overflow ∧ (run d₀ calls).value.EdgesFull ∧
        ∃ source target width color, c = .addEdge source target width color := by
  have h := consistent_run (consistent_new hnew) calls
  generalize run d₀ calls = t at h
  have hchecked := Sound.checked_eq ⟨h.nodes, h.edges⟩ c
  -- a call is refused where an addressed element is dead, and only there
  by_cases hdead : ∃ p ∈ c.addressed, t.value.isLive p.1 p.2 = false
  · obtain ⟨p, hp⟩ : ∃ p, c.addressed.find? (fun p => !t.value.isLive p.1 p.2) = some p := by
      rw [← Option.isSome_iff_exists, List.find?_isSome]
      simpa using hdead
    have heq := edit_of_missing hp
    refine ⟨⟨fun _ => hdead, fun _ => ⟨_, _, heq⟩⟩, fun f t' hf => ?_, hchecked, fun f t' hf => ?_⟩
    · rw [heq] at hf
      cases hf
      rfl
    · rw [heq] at hf
      cases hf
  · have hlive : ∀ p ∈ c.addressed, t.value.isLive p.1 p.2 = true := by
      intro p hp
      cases hlive : t.value.isLive p.1 p.2 with
      | true => rfl
      | false => exact absurd ⟨p, hp, hlive⟩ hdead
    -- all are live: the call succeeds, or there is no room for another edge
    rcases h.edit_of_live hc hlive with ⟨t', heq⟩ | ⟨heq, hfull⟩
    · rw [heq]
      refine ⟨⟨?_, fun hd => absurd hd hdead⟩, ?_, hchecked.trans heq, ?_⟩
      · rintro ⟨e, t'', hf⟩
        cases hf
      · intro f t'' hf
        cases hf
      · intro f t'' hf
        cases hf
    · rw [heq]
      refine ⟨⟨?_, fun hd => absurd hd hdead⟩, ?_, hchecked.trans heq, ?_⟩
      · rintro ⟨e, t'', hf⟩
        cases hf
      · intro f t'' hf
        cases hf
        rfl
      · intro f t'' hf
        cases hf
        exact ⟨rfl, hfull⟩

/-- Two nodes and an edge between them, of which one node is removed. -/
def oneEndRemoved : List Call :=
  [.addNode default, .addNode default, .addEdge 0 1 default default, .removeNode 1]

/-- An edge to the removed node is refused, and so is another removal of the edge. -/
theorem calls_all_or_nothing_removed :
    ∃ d₀, GraphData.new { nodes := ⟨2, 1⟩, edges := ⟨2, 1⟩ } = .ok d₀ ∧
      (∃ e t', (Call.addEdge 0 1 default default).edit (run d₀ oneEndRemoved)
        = .error (.error e) t') ∧
      (∃ e t', (Call.removeEdge 0).edit (run d₀ oneEndRemoved) = .error (.error e) t') ∧
      ¬ ∃ e t', (Call.addEdge 0 0 default default).edit (run d₀ oneEndRemoved)
        = .error (.error e) t' := by
  have hnew : GraphData.new { nodes := ⟨2, 1⟩, edges := ⟨2, 1⟩ }
      = .ok { nodes := { config := ⟨2, 1⟩ }, edges := { config := ⟨2, 1⟩ } } := rfl
  refine ⟨_, hnew, ?_, ?_, ?_⟩
  · rw [(calls_all_or_nothing hnew oneEndRemoved (by decide)).1]
    decide +kernel
  · rw [(calls_all_or_nothing hnew oneEndRemoved (by decide)).1]
    decide +kernel
  · rw [(calls_all_or_nothing hnew oneEndRemoved (by decide)).1]
    decide +kernel

end GraphData

end LiveGraph
