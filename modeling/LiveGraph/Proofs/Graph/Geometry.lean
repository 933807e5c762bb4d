import LiveGraph.Proofs.Graph.Consistency

/-!
# The geometry of a graph

The record of an edge repeats the positions of its end nodes, so that it can be drawn by itself. In an
attached graph these copies are right. A new edge copies the positions, and a node that moves drags
the edges it lists, which are all that meet it; every other call leaves the positions of nodes and the
ends of edges alone, or takes elements away.
-/

namespace LiveGraph

namespace Store

variable {ρ τ β : Type} [Record ρ] [Inhabited τ]

/-- Slots may be gone, but what is left shows the same in a view. -/
structure Fades (view : ρ → τ → β) (s s' : Store ρ τ) : Prop where
  wellFormed : s'.WellFormed
  live : ∀ x, s'.isLive x = true → s.isLive x = true
  view : ∀ x, s'.isLive x = true →
    view (s'.recordAt x) (s'.dataAt x) = view (s.recordAt x) (s.dataAt x)

variable {view : ρ → τ → β} {s s' s'' : Store ρ τ}

theorem WellFormed.fades (h : s.WellFormed) : Fades view s s :=
  ⟨h, fun _ hx => hx, fun _ _ => rfl⟩

/-- What is seen of the elements that are left stays as it was, also in two steps. -/
theorem Fades.trans (h : Fades view s s') (h' : Fades view s' s'') : Fades view s s'' where
  wellFormed := h'.wellFormed
  live x hx := h.live x (h'.live x hx)
  view x hx := (h'.view x hx).trans (h.view x (h'.live x hx))

/-- A slot gets a record with the same view. -/
theorem Rewritten.fades {slot : Nat} {r : ρ} (h : Rewritten s slot r s')
    (hview : view r (s.dataAt slot) = view (s.recordAt slot) (s.dataAt slot)) :
    Fades view s s' where
  wellFormed := h.wellFormed
  live x hx := by
    rw [← h.live]
    exact hx
  view x hx := by
    rw [h.live] at hx
    rw [h.data, h.record x hx]
    split
    · next hxs => rw [hxs, hview]
    · rfl

/-- A store with the same elements and records shows the same. -/
theorem SameElements.fades (h : SameElements s s') (hrecord : ∀ x, s'.recordAt x = s.recordAt x) :
    Fades view s s' where
  wellFormed := h.wellFormed
  live x hx := (h.live x).symm.trans hx
  view x _ := by rw [h.data, hrecord]

/-- What is left when slots go is as it was. -/
theorem Erased.fades {slots : List Nat} (h : Erased s slots s') : Fades view s s' where
  wellFormed := h.wellFormed
  live x hx := ((h.live x).1 hx).1
  view x hx := by rw [h.data, h.record x hx]

end Store

namespace GraphData

variable {α : Type}

/-! ## Attached edges -/

/-- The edge's record has both ends where its nodes are. -/
def AttachedAt (d : GraphData) (e : Nat) : Prop :=
  (d.edges.recordAt e).source = (d.nodes.recordAt (d.edges.dataAt e).source).pos ∧
    (d.edges.recordAt e).target = (d.nodes.recordAt (d.edges.dataAt e).target).pos

/-- All edges are drawn between their nodes. -/
def Attached (d : GraphData) : Prop := ∀ e, d.edges.isLive e = true → d.AttachedAt e

/-- Where a node is. -/
def nodeView (r : NodeRecord) (_ : NodeData) : Point := r.pos

/-- Between which nodes an edge is, and where it is drawn. -/
def edgeView (r : EdgeRecord) (ends : EdgeData) : EdgeData × Point × Point :=
  (ends, r.source, r.target)

/-- Edges that are drawn as before stay attached while the nodes that are left stay where they were. -/
theorem Attached.of_fades {d d' : GraphData} (ha : d.Attached) (h : d.Consistent) (h' : d'.Consistent)
    (hnodes : ∀ n, d.nodes.isLive n = true → d'.nodes.isLive n = true →
      (d'.nodes.recordAt n).pos = (d.nodes.recordAt n).pos)
    (hedges : Store.Fades edgeView d.edges d'.edges) : d'.Attached := by
  intro e he'
  have he : d.edges.isLive e = true := hedges.live e he'
  have hview := hedges.view e he'
  simp only [edgeView, Prod.mk.injEq] at hview
  obtain ⟨hdata, hsource, htarget⟩ := hview
  -- the nodes at the ends were there before and are there now
  have hpos : ∀ n, d.topology.Meets e n → (d'.nodes.recordAt n).pos = (d.nodes.recordAt n).pos := by
    intro n hmeets
    refine hnodes n (h.linked.node_of_meets e he n hmeets) (h'.linked.node_of_meets e he' n ?_)
    show (d'.edges.dataAt e).source = n ∨ (d'.edges.dataAt e).target = n
    rw [hdata]
    exact hmeets
  have hold := ha e he
  unfold AttachedAt at hold ⊢
  rw [hdata, hsource, htarget, hpos (d.edges.dataAt e).source (.inl rfl),
    hpos (d.edges.dataAt e).target (.inr rfl)]
  exact hold

/-! ## Calls that take away -/

/-- What is left of the graph is where it was. -/
structure Spares (d d' : GraphData) : Prop where
  nodes : Store.Fades nodeView d.nodes d'.nodes
  edges : Store.Fades edgeView d.edges d'.edges

/-- Taking elements away detaches no edge. -/
theorem Attached.of_spares {d d' : GraphData} (ha : d.Attached) (h : d.Consistent) (h' : d'.Consistent)
    (hs : Spares d d') : d'.Attached :=
  ha.of_fades h h' (fun n _ hn => hs.nodes.view n hn) hs.edges

/-- The edge lists of the nodes are not drawn. -/
theorem Kept.fades {s s' : NodeStore} (h : Kept s s') : Store.Fades nodeView s s' where
  wellFormed := h.wellFormed
  live x hx := (h.live x).symm.trans hx
  view x _ := congrArg NodeRecord.pos (h.record x)

theorem Dropped.spares {d d' : GraphData} {es : List Nat} (h : Dropped d es d') : Spares d d' :=
  ⟨h.nodes.fades, h.edges.fades⟩

section

variable {d : GraphData}

theorem Attached.removeEdge (ha : d.Attached) (h : d.Consistent) (slot : Nat) (events : Array Event) :
    ((removeEdge slot).after ⟨d, events⟩).value.Attached := by
  rcases h.removeEdge_cases slot events with ⟨f, heq⟩ | ⟨d', heq, hdropped, h'⟩
  · rw [Edit.after_of_error heq]
    exact ha
  · rw [Edit.after_of_ok heq]
    exact ha.of_spares h h' hdropped.spares

/-- Removing a node detaches no edge, since its own edges go with it. -/
theorem Attached.removeNode (ha : d.Attached) (h : d.Consistent) (slot : Nat) (events : Array Event) :
    ((removeNode slot).after ⟨d, events⟩).value.Attached := by
  rcases h.removeNode_cases slot events with
    ⟨-, f, heq⟩ | ⟨d₁, nodes, heq, -, hdropped, herased, h'⟩
  · rw [Edit.after_of_error heq]
    exact ha
  · rw [Edit.after_of_ok heq]
    have hs : Spares d { d₁ with nodes } :=
      ⟨hdropped.nodes.fades.trans herased.fades, hdropped.edges.fades⟩
    have ha' : ({ d₁ with nodes } : GraphData).Attached := ha.of_spares h h' hs
    exact ha'

theorem Attached.onAttributes (ha : d.Attached) (k : Kind)
    (f : AttributeSet → Except AttributeError AttributeSet) (events : Array Event) :
    ((onAttributes k f).after ⟨d, events⟩).value.Attached := by
  rcases onAttributes_cases d k f events with ⟨e, heq⟩ | ⟨s, -, heq⟩
  · rw [Edit.after_of_error heq]
    exact ha
  · rw [Edit.after_of_ok heq]
    cases k with
    | node => exact ha
    | edge => exact ha

/-- A flush draws nothing. -/
theorem Attached.flush (ha : d.Attached) (h : d.Consistent) (events : Array Event) :
    (flush.after ⟨d, events⟩).value.Attached := by
  have h' := (h.flush events).consistent h
  obtain ⟨nodes, edges, events', heq, ⟨hnodes, hpos⟩, hedges, hends⟩ := h.flush_eq events
  rw [Edit.after_of_ok heq] at h' ⊢
  exact ha.of_spares h h' ⟨hnodes.fades hpos, hedges.fades hends⟩

end

/-! ## Calls that draw -/

section

variable {d : GraphData}

/-- A slot that held no node meets no edge, so a new node moves none. -/
theorem Attached.addNode (ha : d.Attached) (h : d.Consistent) (r : NodeRecord)
    (events : Array Event) : ((addNode r).after ⟨d, events⟩).value.Attached := by
  have h' := (h.addNode r events).consistent h
  rcases addNode_cases h.nodes r events with ⟨f, heq⟩ | ⟨slot, nodes, events', heq, hins⟩
  · rw [Edit.after_of_error heq]
    exact ha
  · rw [Edit.after_of_ok heq] at h' ⊢
    refine ha.of_fades h h' (fun n hn hn' => ?_) h.edges.fades
    have hne : n ≠ slot := by
      rintro rfl
      rw [hins.dead] at hn
      cases hn
    rw [hins.record n hn', if_neg hne]

/-- A changed node stays where it is, if the change leaves its position alone. -/
theorem Attached.updateNode (ha : d.Attached) (h : d.Consistent) {slot : Nat}
    {f : NodeRecord → NodeRecord}
    (hkeep : ∀ r, d.nodes.record slot = .ok r → (f r).pos = r.pos) (events : Array Event) :
    ((updateNode slot f).after ⟨d, events⟩).value.Attached := by
  have h' := (h.updateNode slot f events).consistent h
  rcases h.updateNode_cases slot f events with ⟨e, heq⟩ | ⟨nodes, heq, hlive, hrewritten⟩
  · rw [Edit.after_of_error heq]
    exact ha
  · rw [Edit.after_of_ok heq] at h' ⊢
    have hpos : (Record.clearDeleted (f (d.nodes.recordAt slot))).pos
        = (d.nodes.recordAt slot).pos :=
      hkeep _ (h.nodes.record_eq (h.node_lt hlive))
    have hnodes : Store.Fades nodeView d.nodes nodes := hrewritten.fades hpos
    exact ha.of_spares h h' ⟨hnodes, h.edges.fades⟩

/-- Highlights are not part of the geometry. -/
theorem Attached.setHighlighted (ha : d.Attached) (h : d.Consistent) (k : Kind) (slot : Nat)
    (on : Bool) (events : Array Event) :
    ((setHighlighted k slot on).after ⟨d, events⟩).value.Attached := by
  have h' := (h.setHighlighted k slot on events).consistent h
  rcases h.setHighlighted_cases k slot on events with
    ⟨f, heq⟩ | ⟨nodes, heq, hnodes⟩ | ⟨edges, heq, hedges⟩
  · rw [Edit.after_of_error heq]
    exact ha
  · rw [Edit.after_of_ok heq] at h' ⊢
    exact ha.of_spares h h' ⟨hnodes.fades rfl, h.edges.fades⟩
  · rw [Edit.after_of_ok heq] at h' ⊢
    exact ha.of_spares h h' ⟨h.nodes.fades, hedges.fades rfl⟩

/-- A new edge copies the positions of its ends. -/
theorem Attached.addEdge (ha : d.Attached) (h : d.Consistent) (source target : Nat)
    (width : Single) (color : Color) (events : Array Event) :
    ((addEdge source target width color).after ⟨d, events⟩).value.Attached := by
  rcases h.addEdge_cases source target width color events with
    ⟨f, heq⟩ | ⟨slot, nodes, edges, events', heq, -, -, hins, hlist⟩
  · rw [Edit.after_of_error heq]
    exact ha
  · rw [Edit.after_of_ok heq]
    intro e he
    show (edges.recordAt e).source = (nodes.recordAt (edges.dataAt e).source).pos ∧
      (edges.recordAt e).target = (nodes.recordAt (edges.dataAt e).target).pos
    rw [hins.record e he, hins.data, hlist.record, hlist.record]
    by_cases hes : e = slot
    · rw [if_pos hes, if_pos hes]
      exact ⟨rfl, rfl⟩
    · rw [if_neg hes, if_neg hes]
      exact ha e (((hins.live e).1 he).resolve_left hes)

/-- A node that moves drags the edges that meet it, for it lists them all. -/
theorem Attached.moveNode (ha : d.Attached) (h : d.Consistent) (slot : Nat) (pos : Point)
    (events : Array Event) : ((moveNode slot pos).after ⟨d, events⟩).value.Attached := by
  rcases h.moveNode_cases slot pos events with
    ⟨f, heq⟩ | ⟨nodes, edges, heq, hlive, hnodes, hedges, hdragged⟩
  · rw [Edit.after_of_error heq]
    exact ha
  · rw [Edit.after_of_ok heq]
    intro e he'
    have he : d.edges.isLive e = true := (hedges.live e).symm.trans he'
    -- the nodes of an edge stand where they stood, apart from the moved one
    have hpos : ∀ n, d.topology.Meets e n →
        (nodes.recordAt n).pos = if n = slot then pos else (d.nodes.recordAt n).pos := by
      intro n hmeets
      rw [hnodes.record n (h.linked.node_of_meets e he n hmeets)]
      split <;> rfl
    have hmem := h.linked.mem_adjacent slot hlive e
    obtain ⟨hsource, htarget⟩ := ha e he
    show (edges.recordAt e).source = (nodes.recordAt (edges.dataAt e).source).pos ∧
      (edges.recordAt e).target = (nodes.recordAt (edges.dataAt e).target).pos
    rw [hdragged e he, hedges.data, hpos (d.edges.dataAt e).source (.inl rfl),
      hpos (d.edges.dataAt e).target (.inr rfl), ← hsource, ← htarget]
    by_cases hin : e ∈ d.topology.adjacent slot
    · rw [if_pos hin]
      exact ⟨rfl, rfl⟩
    · -- an edge that the node does not list ends elsewhere
      rw [if_neg hin]
      have hs : (d.edges.dataAt e).source ≠ slot := fun hs => hin (hmem.2 ⟨he, .inl hs⟩)
      have ht : (d.edges.dataAt e).target ≠ slot := fun ht => hin (hmem.2 ⟨he, .inr ht⟩)
      rw [if_neg hs, if_neg ht]
      exact ⟨rfl, rfl⟩

end

/-! ## Runs -/

/-- Every call keeps the edges attached, if a changed node is left where it is. -/
theorem Attached.call {t : Tracked GraphData} (ha : t.value.Attached) (h : t.value.Consistent)
    (c : Call) (hkeep : ∀ slot f, c = .updateNode slot f →
      ∀ r, t.value.nodes.record slot = .ok r → (f r).pos = r.pos) :
    (c.edit.after t).value.Attached := by
  obtain ⟨d, events⟩ := t
  cases c with
  | addNode r =>
    rw [Call.edit, Edit.after_discard]
    exact ha.addNode h r events
  | addEdge source target width color =>
    rw [Call.edit, Edit.after_discard]
    exact ha.addEdge h source target width color events
  | moveNode slot pos => exact ha.moveNode h slot pos events
  | updateNode slot f => exact ha.updateNode h (hkeep slot f rfl) events
  | setHighlighted k slot on => exact ha.setHighlighted h k slot on events
  | removeEdge slot => exact ha.removeEdge h slot events
  | removeNode slot => exact ha.removeNode h slot events
  | attributes k f => exact ha.onAttributes k f events
  | flush => exact ha.flush h events

theorem run_concat (d : GraphData) (calls : List Call) (c : Call) :
    run d (calls ++ [c]) = c.edit.after (run d calls) := by
  unfold run
  rw [List.foldl_append]
  rfl

/-- Every graph that such calls can lead to is attached. -/
theorem Attached.run {d : GraphData} (ha : d.Attached) (h : d.Consistent) {calls : List Call}
    (hkeep : ∀ before slot f after, calls = before ++ .updateNode slot f :: after →
      ∀ r, (run d before).value.nodes.record slot = .ok r → (f r).pos = r.pos) :
    (GraphData.run d calls).value.Attached := by
  -- the induction is on the calls that are left, so that those made so far are a prefix
  have hgo : ∀ rest before, calls = before ++ rest → (GraphData.run d before).value.Attached →
      (GraphData.run d (before ++ rest)).value.Attached := by
    intro rest
    induction rest with
    | nil =>
      intro before _ hbefore
      rw [List.append_nil]
      exact hbefore
    | cons c rest ih =>
      intro before hsplit hbefore
      have hnext : (GraphData.run d (before ++ [c])).value.Attached := by
        rw [run_concat]
        apply hbefore.call (consistent_run h before)
        rintro slot f rfl
        exact hkeep before slot f rest hsplit
      rw [← List.singleton_append, ← List.append_assoc]
      apply ih (before ++ [c]) _ hnext
      rw [hsplit, List.append_assoc, List.singleton_append]
  exact hgo calls [] rfl ha

/-- A new graph has no edges. -/
theorem attached_new {config : GraphConfig} {d : GraphData} (h : GraphData.new config = .ok d) :
    d.Attached := by
  obtain ⟨-, rfl⟩ := new_eq_ok_iff.1 h
  intro e he
  simp [Store.isLive] at he

/-- After any calls on a new graph that leave changed nodes where they are, the record of every live
edge has its two ends where its nodes are. -/
theorem edges_follow_nodes {config : GraphConfig} {d₀ : GraphData}
    (hnew : GraphData.new config = .ok d₀) (calls : List Call)
    (hkeep : ∀ before slot f after, calls = before ++ .updateNode slot f :: after →
      ∀ r, (run d₀ before).value.nodes.record slot = .ok r → (f r).pos = r.pos) :
    ∀ e, (run d₀ calls).value.edges.isLive e = true →
      ∃ ends r a b, (run d₀ calls).value.edges.data e = .ok ends ∧
        (run d₀ calls).value.edges.record e = .ok r ∧
        (run d₀ calls).value.nodes.record ends.source = .ok a ∧
        (run d₀ calls).value.nodes.record ends.target = .ok b ∧
        r.source = a.pos ∧ r.target = b.pos := by
  have h := consistent_run (consistent_new hnew) calls
  have ha := (attached_new hnew).run (consistent_new hnew) hkeep
  generalize (run d₀ calls).value = d at h ha
  intro e he
  have hends := h.linked.node_of_meets e he
  obtain ⟨hsource, htarget⟩ := ha e he
  exact ⟨_, _, _, _, h.edges.data_eq (h.edge_lt he), h.edges.record_eq (h.edge_lt he),
    h.nodes.record_eq (h.node_lt (hends _ (.inl rfl))),
    h.nodes.record_eq (h.node_lt (hends _ (.inr rfl))), hsource, htarget⟩

/-- A loop and two parallel edges, one of which is removed. Its slot goes to an edge the other way
round, and then the node that all edges meet is changed and moved. -/
def movedHub : List Call :=
  [.addNode default, .addNode default, .addEdge 0 0 default default, .addEdge 0 1 default default,
   .addEdge 0 1 default default, .removeEdge 1, .addEdge 1 0 default default,
   .updateNode 0 fun r => { r with radius := default }, .moveNode 0 ⟨⟨1⟩, ⟨2⟩⟩]

/-- The edges of the moved node, with blocks of two slots. -/
theorem edges_follow_nodes_moved :
    ∃ d₀, GraphData.new { nodes := ⟨2, 1⟩, edges := ⟨2, 1⟩ } = .ok d₀ ∧
      ((run d₀ movedHub).value.edges.isLive 0 = true ∧ (run d₀ movedHub).value.edges.isLive 1 = true ∧
        (run d₀ movedHub).value.edges.isLive 2 = true) ∧
      ∀ e, (run d₀ movedHub).value.edges.isLive e = true →
        ∃ ends r a b, (run d₀ movedHub).value.edges.data e = .ok ends ∧
          (run d₀ movedHub).value.edges.record e = .ok r ∧
          (run d₀ movedHub).value.nodes.record ends.source = .ok a ∧
          (run d₀ movedHub).value.nodes.record ends.target = .ok b ∧
          r.source = a.pos ∧ r.target = b.pos := by
  have hnew : GraphData.new { nodes := ⟨2, 1⟩, edges := ⟨2, 1⟩ }
      = .ok { nodes := { config := ⟨2, 1⟩ }, edges := { config := ⟨2, 1⟩ } } := rfl
  refine ⟨_, hnew, by decide +kernel, edges_follow_nodes hnew movedHub ?_⟩
  intro before slot f after hsplit r _
  have hmem : Call.updateNode slot f ∈ movedHub := by
    rw [hsplit]
    exact List.mem_append_right _ List.mem_cons_self
  simp only [movedHub, List.mem_cons, List.not_mem_nil, reduceCtorEq, Call.updateNode.injEq, or_false,
    false_or] at hmem
  rw [hmem.2]

end GraphData

end LiveGraph
