import LiveGraph.Proofs.Attribute
import LiveGraph.Proofs.Graph.Change

/-!
# Attributes belong to live elements

A value in an attribute table is addressed by the slot of its element, and slots are used again. A
removed element takes its values with it, also an edge that goes because one of its nodes goes. So if
values are only ever set where an element is live, every value belongs to a live element, and an element
that gets a slot starts without values.
-/

namespace LiveGraph

namespace GraphData

/-- A slot holds an element of a kind. -/
def isLive (d : GraphData) : Kind → Nat → Bool
  | .node, slot => d.nodes.isLive slot
  | .edge, slot => d.edges.isLive slot

/-- Every slot with a value in some table holds an element. -/
structure Owned (d : GraphData) : Prop where
  nodes : ∀ x, d.nodeAttributes.HasValue x → d.nodes.isLive x = true
  edges : ∀ x, d.edgeAttributes.HasValue x → d.edges.isLive x = true

/-- Edges that go take their values with them. -/
theorem Dropped.owned {d d' : GraphData} {es : List Nat} (hd : Dropped d es d') (h : d.Owned) :
    d'.Owned where
  nodes x hx := by
    rw [hd.nodeAttributes] at hx
    rw [hd.nodes.live]
    exact h.nodes x hx
  edges x hx := by
    rw [hd.edgeAttributes, AttributeSet.hasValue_foldl_clearSlot] at hx
    exact (hd.edges.live x).2 ⟨h.edges x hx.1, hx.2⟩

section

variable {d : GraphData} (h : d.Owned)

include h

/-- A slot that goes to a node held none before, so it has no values. -/
theorem Owned.addNode (hd : d.Consistent) {r : NodeRecord} {events : Array Event} {slot : Nat}
    {t : Tracked GraphData} (hadd : addNode r ⟨d, events⟩ = .ok slot t) :
    ¬ t.value.nodeAttributes.HasValue slot := by
  rcases addNode_cases hd.nodes r events with ⟨f, heq⟩ | ⟨slot', nodes, events', heq, hins⟩
  · rw [heq] at hadd
    cases hadd
  · rw [heq] at hadd
    cases hadd
    intro hvalue
    have hlive := h.nodes slot hvalue
    rw [hins.dead] at hlive
    cases hlive

/-- A new edge has no values of an edge that was removed. -/
theorem Owned.addEdge (hd : d.Consistent) {source target : Nat} {width : Single} {color : Color}
    {events : Array Event} {slot : Nat} {t : Tracked GraphData}
    (hadd : addEdge source target width color ⟨d, events⟩ = .ok slot t) :
    ¬ t.value.edgeAttributes.HasValue slot := by
  rcases hd.addEdge_cases source target width color events with
    ⟨f, heq⟩ | ⟨slot', nodes, edges, events', heq, -, -, hins, -⟩
  · rw [heq] at hadd
    cases hadd
  · rw [heq] at hadd
    cases hadd
    intro hvalue
    have hlive := h.edges slot hvalue
    rw [hins.dead] at hlive
    cases hlive

end

/-- A change of attributes gives values to slots that had one, or that hold an element. -/
def Gives (d : GraphData) (k : Kind) (s : AttributeSet) : Prop :=
  ∀ x, s.HasValue x → (d.attributes k).HasValue x ∨ d.isLive k x = true

theorem Owned.setAttributes {d : GraphData} (h : d.Owned) {k : Kind} {s : AttributeSet}
    (hs : d.Gives k s) : (d.setAttributes k s).Owned := by
  cases k with
  | node => exact ⟨fun x hx => (hs x hx).elim (h.nodes x) id, h.edges⟩
  | edge => exact ⟨h.nodes, fun x hx => (hs x hx).elim (h.edges x) id⟩

/-- Every change keeps values to live slots, if the attributes are set for live ones. -/
theorem Change.owned {t : Tracked GraphData} {c : Call} {d : GraphData} (hc : Change t c d)
    (h : t.value.Owned) (hgives : ∀ k f s, c = .attributes k f → f (t.value.attributes k) = .ok s →
      t.value.Gives k s) : d.Owned := by
  cases hc with
  | refused _ => exact h
  | redrawn _ hnodes hedges =>
    refine ⟨fun x hx => ?_, fun x hx => ?_⟩
    · exact (hnodes.live x).trans (h.nodes x hx)
    · exact (hedges.live x).trans (h.edges x hx)
  | nodeAdded _ hins => exact ⟨fun x hx => (hins.live x).2 (.inr (h.nodes x hx)), h.edges⟩
  | edgeAdded _ hins hkept =>
    refine ⟨fun x hx => ?_, fun x hx => ?_⟩
    · exact (hkept.live x).trans (h.nodes x hx)
    · exact (hins.live x).2 (.inr (h.edges x hx))
  | edgeRemoved hdropped => exact hdropped.owned h
  | @nodeRemoved slot _ _ _ _ hdropped herased =>
    have howned := hdropped.owned h
    refine ⟨fun x hx => ?_, howned.edges⟩
    -- the values of the node are cleared with it, so what has a value is another node
    obtain ⟨hvalue, hne⟩ := (AttributeSet.hasValue_clearSlot _ slot x).1 hx
    refine (herased.live x).2 ⟨howned.nodes x hvalue, ?_⟩
    rw [List.mem_singleton]
    exact hne
  | attributed hf => exact h.setAttributes (hgives _ _ _ rfl hf)

/-! ## Runs -/

/-- If the call concerns attributes, it is one of the operations on them, and a value that is set is
set where an element is live. -/
def Call.Mindful (d : GraphData) : Call → Prop
  | .attributes k f => ∃ op : AttributeSet.Operation, f = op.apply ∧
      ∀ name slot v s, op = .set name slot v → f (d.attributes k) = .ok s → d.isLive k slot = true
  | _ => True

theorem Call.Mindful.gives {d : GraphData} {k : Kind}
    {f : AttributeSet → Except AttributeError AttributeSet} (h : Mindful d (.attributes k f))
    {s : AttributeSet} (hf : f (d.attributes k) = .ok s) : d.Gives k s := by
  obtain ⟨op, rfl, hlive⟩ := h
  intro x hx
  rcases op.hasValue hf hx with ⟨name, v, hop⟩ | hold
  · exact .inr (hlive name x v s hop hf)
  · exact .inl hold

/-- Each call is mindful of the graph that it finds. -/
def Mindful (t : Tracked GraphData) : List Call → Prop
  | [] => True
  | c :: calls => c.Mindful t.value ∧ Mindful (c.edit.after t) calls

/-- Mindful calls leave every value with a live slot. -/
theorem Owned.resume {t : Tracked GraphData} (ho : t.value.Owned) (h : t.value.Consistent)
    {calls : List Call} (hm : Mindful t calls) : (resume t calls).value.Owned := by
  induction calls generalizing t with
  | nil => exact ho
  | cons c calls ih =>
    rw [resume_cons]
    refine ih ((h.change c).owned ho ?_) (h.call c) hm.2
    rintro k f s rfl hf
    exact hm.1.gives hf

/-- A new graph has no values. -/
theorem owned_new {config : GraphConfig} {d : GraphData} (h : GraphData.new config = .ok d) :
    d.Owned := by
  obtain ⟨-, rfl⟩ := new_eq_ok_iff.1 h
  exact ⟨fun x hx => absurd hx (AttributeSet.not_hasValue_empty x),
    fun x hx => absurd hx (AttributeSet.not_hasValue_empty x)⟩

/-- After any calls on a new graph that set values where elements are live, every slot with a value in a
table of nodes or edges holds a live node or edge; a node or an edge that is added then gets a slot
without values. -/
theorem attributes_owned {config : GraphConfig} {d₀ : GraphData} (hnew : GraphData.new config = .ok d₀)
    (calls : List Call) (hm : Mindful ⟨d₀, #[]⟩ calls) :
    (∀ table ∈ (run d₀ calls).value.nodeAttributes.tables, ∀ slot v, table.get? slot = some v →
      (run d₀ calls).value.nodes.isLive slot = true) ∧
    (∀ table ∈ (run d₀ calls).value.edgeAttributes.tables, ∀ slot v, table.get? slot = some v →
      (run d₀ calls).value.edges.isLive slot = true) ∧
    (∀ r slot t, addNode r (run d₀ calls) = .ok slot t →
      ∀ table ∈ t.value.nodeAttributes.tables, table.get? slot = none) ∧
    ∀ source target width color slot t, addEdge source target width color (run d₀ calls) = .ok slot t →
      ∀ table ∈ t.value.edgeAttributes.tables, table.get? slot = none := by
  have h := consistent_run (consistent_new hnew) calls
  have ho : (run d₀ calls).value.Owned := (owned_new hnew).resume (consistent_new hnew) hm
  refine ⟨?_, ?_, ?_, ?_⟩
  · intro table htable slot v hv
    exact ho.nodes slot (AttributeSet.hasValue_of_get? htable hv)
  · intro table htable slot v hv
    exact ho.edges slot (AttributeSet.hasValue_of_get? htable hv)
  · intro r slot t hadd
    exact AttributeSet.get?_of_not_hasValue (ho.addNode h hadd)
  · intro source target width color slot t hadd
    exact AttributeSet.get?_of_not_hasValue (ho.addEdge h hadd)

/-- An edge and one of its nodes get a value each; the node is removed, which takes the edge along, and
another node takes its slot. -/
def removedEnd : List Call :=
  [.addNode default, .addNode default, .addEdge 0 1 default default,
   .attributes .node (AttributeSet.Operation.create "size" .integer).apply,
   .attributes .node (AttributeSet.Operation.set "size" 0 (.integer 7)).apply,
   .attributes .edge (AttributeSet.Operation.create "cost" .text).apply,
   .attributes .edge (AttributeSet.Operation.set "cost" 0 (.text "a")).apply,
   .removeNode 0, .addNode default]

/-- The slot of the edge goes to a new edge, which has no values, with blocks of two slots. -/
theorem attributes_owned_removed_end :
    ∃ d₀, GraphData.new { nodes := ⟨2, 1⟩, edges := ⟨2, 1⟩ } = .ok d₀ ∧
      Mindful ⟨d₀, #[]⟩ removedEnd ∧
      (((run d₀ (removedEnd.take 7)).value.edgeAttributes.tables.map (·.get? 0)
          = [some (.text "a")]) ∧
        (addEdge 1 0 default default).answer? (run d₀ removedEnd) = some 0) ∧
      ∀ source target width color slot t,
        addEdge source target width color (run d₀ removedEnd) = .ok slot t →
          ∀ table ∈ t.value.edgeAttributes.tables, table.get? slot = none := by
  have hnew : GraphData.new { nodes := ⟨2, 1⟩, edges := ⟨2, 1⟩ }
      = .ok { nodes := { config := ⟨2, 1⟩ }, edges := { config := ⟨2, 1⟩ } } := rfl
  have hm : Mindful ⟨{ nodes := { config := ⟨2, 1⟩ }, edges := { config := ⟨2, 1⟩ } }, #[]⟩
      removedEnd := by
    -- of the four calls about attributes, two set a value, each of a live slot
    refine ⟨trivial, trivial, trivial, ⟨_, rfl, ?_⟩, ⟨_, rfl, ?_⟩, ⟨_, rfl, ?_⟩, ⟨_, rfl, ?_⟩, trivial,
      trivial, trivial⟩
    · intro name slot v s hop _
      cases hop
    · intro name slot v s hop _
      cases hop
      decide +kernel
    · intro name slot v s hop _
      cases hop
    · intro name slot v s hop _
      cases hop
      decide +kernel
  exact ⟨_, hnew, hm, by decide +kernel, (attributes_owned hnew removedEnd hm).2.2.2⟩

end GraphData

end LiveGraph
