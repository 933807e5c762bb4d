import LiveGraph.Proofs.Graph.Bookkeeping
import LiveGraph.Proofs.Store.Capacity

/-!
# Room in graphs

The capacity of a store is a power of two, and the store refuses to grow only where the array beside its
records would exceed the limit on arrays. So there is a greatest capacity, `2 ^ 57` for nodes and `2 ^ 58` for
edges, and a slot is handed out exactly if fewer than that many are live, whatever was added and removed
before.
-/

namespace LiveGraph

namespace Store

variable {ρ τ : Type} [Record ρ] [Inhabited τ]

/-- The greatest capacity of a store: what is kept beside the records is then half as much as no array
holds. -/
def roomLimit (ρ : Type) [Record ρ] : Nat := Nat.pow 2 62 / Record.sideSize ρ

example : roomLimit NodeRecord = Nat.pow 2 57 ∧ roomLimit EdgeRecord = Nat.pow 2 58 := by decide

/-- Capacities that a store can have are at most the limit. -/
theorem Feasible.le_roomLimit {capacity : Nat} (h : Feasible ρ capacity) : capacity ≤ roomLimit ρ :=
  (Nat.le_div_iff_mul_le (sideSize_pos ρ)).2 h.side_le

/-- The limit itself can be had. -/
theorem roomLimit_mul_lt (ρ : Type) [Record ρ] : roomLimit ρ * Record.sideSize ρ < arrayLimit :=
  Nat.lt_of_le_of_lt (Nat.div_mul_le_self _ _) (by decide)

/-- The limit is a power of two, if there can be slots at all. -/
theorem roomLimit_power (hpos : 0 < roomLimit ρ) : ∃ k, roomLimit ρ = Nat.pow 2 k := by
  obtain ⟨j, hj⟩ := Record.sideSize_power (ρ := ρ)
  rw [roomLimit, Nat.div_pos_iff, hj] at hpos
  have hle : j ≤ 62 := (Nat.pow_le_pow_iff_right (by decide : 1 < 2)).1 hpos.2
  rw [roomLimit, hj]
  exact ⟨62 - j, Nat.pow_div hle (by decide)⟩

omit [Inhabited τ] in
/-- There is a free slot, or room for the next one, exactly if fewer slots than the limit are live. -/
theorem WellFormed.hasRoom_one_iff {s : Store ρ τ} (h : s.WellFormed)
    (hsnug : Snug s.len s.capacity) : s.HasRoom 1 ↔ s.liveCount < roomLimit ρ := by
  have hle : s.len ≤ roomLimit ρ := Nat.le_trans h.len_le h.fits.le_roomLimit
  -- without a free slot the store has to have room behind those in use
  by_cases hfree : s.free = []
  · have hcount : s.liveCount = s.len := by
      rw [liveCount, hfree]
      exact Nat.sub_zero _
    rw [hcount]
    constructor
    · rintro ⟨-, ⟨-, hne⟩ | ⟨-, hroom⟩⟩
      · exact absurd hfree hne
      by_cases hcap : s.len + 1 ≤ s.capacity
      · exact Nat.le_trans hcap h.fits.le_roomLimit
      · have hfits := h.feasible_grownCapacity (hroom.resolve_left hcap)
        exact Nat.le_trans (le_grownCapacity s (s.len + 1)).1 hfits.le_roomLimit
    · intro hlt
      have hlimit := roomLimit_mul_lt ρ
      have harray : roomLimit ρ < arrayLimit :=
        Nat.lt_of_le_of_lt (Nat.le_mul_of_pos_right _ (sideSize_pos ρ)) hlimit
      have hneeded : s.len + 1 ≤ arrayLimit := Nat.le_trans hlt (Nat.le_of_lt harray)
      refine ⟨Nat.one_ne_zero, .inr ⟨Nat.lt_of_le_of_lt hneeded (by decide), ?_⟩⟩
      by_cases hcap : s.len + 1 ≤ s.capacity
      · exact .inl hcap
      · -- the array grows to the least power of two, and the limit is a power of two
        have hleast : Snug (s.len + 1) (s.grownCapacity (s.len + 1)) :=
          hsnug.grow (Nat.lt_of_not_le hcap) hneeded
        rw [Snug, if_neg (Nat.succ_ne_zero _)] at hleast
        obtain ⟨k, hk⟩ := roomLimit_power (ρ := ρ) (Nat.zero_lt_of_lt hlt)
        have hcapacity : s.grownCapacity (s.len + 1) ≤ roomLimit ρ := hk ▸ hleast.least k (hk ▸ hlt)
        exact .inr (Nat.lt_of_le_of_lt (Nat.mul_le_mul_right _ hcapacity) hlimit)
  · constructor
    -- one slot is free, so fewer are live than the limit allows
    · intro _
      have hsome := List.length_pos_iff.2 hfree
      have hfewer := h.length_free_le
      rw [liveCount]
      omega
    · intro _
      exact ⟨Nat.one_ne_zero, .inl ⟨rfl, hfree⟩⟩

/-- Where there is room, a slot is handed out. -/
theorem WellFormed.add_one_of_room {s : Store ρ τ} (h : s.WellFormed) (hroom : s.HasRoom 1)
    (events : Array Event) :
    ∃ slot s' events', add 1 ⟨s, events⟩ = .ok slot ⟨s', events'⟩ ∧ Fresh s slot s' := by
  obtain ⟨first, t, hadd⟩ := (h.add_ok_iff 1 events).2 hroom
  rcases h.add_one_cases events with ⟨f, hfail⟩ | hok
  · rw [hadd] at hfail
    cases hfail
  · exact hok

omit [Inhabited τ] in
/-- The count is the number of live slots. -/
theorem WellFormed.liveCount_eq {s : Store ρ τ} (h : s.WellFormed) (ht : s.Tidy) :
    s.liveCount = ((List.range s.len).filter s.isLive).length := by
  have hcount : (List.range s.len).countP s.isLive + s.free.length = s.len :=
    h.countP_add_free fun x hx => h.isLive_iff_not_free ht hx
  rw [List.countP_eq_length_filter] at hcount
  rw [liveCount]
  omega

omit [Inhabited τ] in
theorem WellFormed.mem_filter_isLive {s : Store ρ τ} (h : s.WellFormed) (x : Nat) :
    x ∈ (List.range s.len).filter s.isLive ↔ s.isLive x = true := by
  rw [List.mem_filter, List.mem_range, and_iff_right_iff_imp]
  intro hlive
  exact ((h.isLive_iff x).1 hlive).1

/-- An insertion makes one slot more live. -/
theorem Inserted.liveCount_eq {s s' : Store ρ τ} {slot : Nat} {r : ρ} {d : τ}
    (hins : Inserted s slot r d s') (h : s.WellFormed) (ht : s.Tidy) :
    s'.liveCount = s.liveCount + 1 := by
  rw [h.liveCount_eq ht, hins.wellFormed.liveCount_eq (hins.tidy ht), ← List.length_cons]
  apply List.Perm.length_eq
  have hrange : ∀ n, (List.range n).Nodup := fun _ => List.nodup_range
  have hnew : slot ∉ (List.range s.len).filter s.isLive := by
    rw [h.mem_filter_isLive, hins.dead]
    exact Bool.false_ne_true
  refine (List.perm_ext_iff_of_nodup ((hrange _).filter _)
    (List.nodup_cons.2 ⟨hnew, (hrange _).filter _⟩)).2 ?_
  intro x
  rw [hins.wellFormed.mem_filter_isLive, List.mem_cons, h.mem_filter_isLive]
  exact hins.live x

end Store

namespace GraphData

/-! ## Capacities along a run -/

/-- Both stores are well-formed, with the capacities that their lengths ask for. -/
structure Fitted (d : GraphData) : Prop where
  nodes : d.nodes.WellFormed ∧ Store.Snug d.nodes.len d.nodes.capacity
  edges : d.edges.WellFormed ∧ Store.Snug d.edges.len d.edges.capacity

/-- The parts of every call keep the capacities snug. -/
theorem keptByParts_fitted : KeptByParts fun t => Fitted t.value where
  nodes {α act} hact := by
    rintro ⟨d, events⟩ h
    obtain ⟨o, deed, new, nodes, hafter, hout⟩ := hact.outcome h.nodes.1 events
    rw [after_onNodes, hafter]
    exact ⟨⟨hout.step.wellFormed h.nodes.1, hout.snug h.nodes.2⟩, h.edges⟩
  edges {α act} hact := by
    rintro ⟨d, events⟩ h
    obtain ⟨o, deed, new, edges, hafter, hout⟩ := hact.outcome h.edges.1 events
    rw [after_onEdges, hafter]
    exact ⟨h.nodes, hout.step.wellFormed h.edges.1, hout.snug h.edges.2⟩
  change {f} hnodes hedges := by
    rintro ⟨d, events⟩ h
    refine ⟨?_, ?_⟩
    · show (f d).nodes.WellFormed ∧ Store.Snug (f d).nodes.len (f d).nodes.capacity
      rw [hnodes]
      exact h.nodes
    · show (f d).edges.WellFormed ∧ Store.Snug (f d).edges.len (f d).edges.capacity
      rw [hedges]
      exact h.edges

/-- What holds of a graph at every point of every run, as far as further elements need it. -/
structure Ready (d : GraphData) : Prop where
  consistent : d.Consistent
  tidy : d.Tidy
  fitted : d.Fitted

/-- A graph is ready after any calls. -/
theorem ready_run {config : GraphConfig} {d₀ : GraphData} (hnew : GraphData.new config = .ok d₀)
    (calls : List Call) : (run d₀ calls).value.Ready where
  consistent := consistent_run (consistent_new hnew) calls
  tidy := tidy_run hnew calls
  fitted := by
    refine run_induction (P := fun t => Fitted t.value) ?_ (fun t c => keptByParts_fitted.call c t) calls
    obtain ⟨hv, rfl⟩ := new_eq_ok_iff.1 hnew
    exact ⟨⟨Store.wellFormed_empty hv.1, Store.snug_zero⟩,
      ⟨Store.wellFormed_empty hv.2, Store.snug_zero⟩⟩

theorem Ready.setAttributes {d : GraphData} (h : d.Ready) (k : Kind) (s : AttributeSet) :
    (d.setAttributes k s).Ready := by
  obtain ⟨⟨hnodes, hedges, hlinked⟩, ⟨htidyN, htidyE⟩, ⟨hfitN, hfitE⟩⟩ := h
  cases k with
  | node => exact ⟨⟨hnodes, hedges, hlinked⟩, ⟨htidyN, htidyE⟩, ⟨hfitN, hfitE⟩⟩
  | edge => exact ⟨⟨hnodes, hedges, hlinked⟩, ⟨htidyN, htidyE⟩, ⟨hfitN, hfitE⟩⟩

theorem Ready.nodeCount_le {d : GraphData} (h : d.Ready) : d.nodeCount ≤ Store.roomLimit NodeRecord := by
  have hwf := h.consistent.nodes
  exact Nat.le_trans (Nat.sub_le _ _) (Nat.le_trans hwf.len_le hwf.fits.le_roomLimit)

/-- Below the limit a node is added, and one node more is there. -/
theorem Ready.addNode {d : GraphData} (h : d.Ready) (hroom : d.nodeCount < Store.roomLimit NodeRecord)
    (r : NodeRecord) (events : Array Event) :
    ∃ slot nodes events', GraphData.addNode r ⟨d, events⟩ = .ok slot ⟨{ d with nodes }, events'⟩ ∧
      d.nodes.Inserted slot (Record.clearDeleted r)
        { adjacent := [], generation := (d.nodes.dataAt slot).generation + 1 } nodes ∧
      ({ d with nodes } : GraphData).Ready ∧
      ({ d with nodes } : GraphData).nodeCount = d.nodeCount + 1 := by
  have hroom := (h.consistent.nodes.hasRoom_one_iff h.fitted.nodes.2).2 hroom
  obtain ⟨slot, nodes₀, events', hadd, hfresh⟩ := h.consistent.nodes.add_one_of_room hroom events
  obtain ⟨nodes, heq, hins⟩ := addNode_of_fresh hadd hfresh r
  have hfitted := keptByParts_fitted.addNode r ⟨d, events⟩ h.fitted
  have hcons := (h.consistent.addNode r events).consistent h.consistent
  rw [Edit.after_of_ok heq] at hfitted hcons
  exact ⟨slot, nodes, events', heq, hins, ⟨hcons, ⟨hins.tidy h.tidy.nodes, h.tidy.edges⟩, hfitted⟩,
    hins.liveCount_eq h.consistent.nodes h.tidy.nodes⟩

/-- At the limit no node is added. -/
theorem Ready.addNode_full {d : GraphData} (h : d.Ready) (hfull : Store.roomLimit NodeRecord ≤ d.nodeCount)
    (r : NodeRecord) (events : Array Event) :
    ∃ f, GraphData.addNode r ⟨d, events⟩ = .error (.fault f) ⟨d, events⟩ := by
  have hno : ¬ d.nodes.HasRoom 1 := by
    rw [h.consistent.nodes.hasRoom_one_iff h.fitted.nodes.2]
    exact Nat.not_lt.2 hfull
  rcases h.consistent.nodes.add_one_cases events with ⟨f, hadd⟩ | ⟨slot, s', events', hadd, -⟩
  · exact ⟨f, by rw [GraphData.addNode, Edit.bind_of_error (onNodes_of_error hadd)]⟩
  · exact absurd ((h.consistent.nodes.add_ok_iff 1 events).1 ⟨slot, _, hadd⟩) hno

/-- Below the limit an edge between nodes is added, and one edge more is there. -/
theorem Ready.addEdge {d : GraphData} (h : d.Ready) (hroom : d.edgeCount < Store.roomLimit EdgeRecord)
    {source target : Nat} (hsource : d.nodes.isLive source = true)
    (htarget : d.nodes.isLive target = true) (width : Single) (color : Color)
    (events : Array Event) :
    ∃ slot nodes edges events', GraphData.addEdge source target width color ⟨d, events⟩
        = .ok slot ⟨{ d with nodes, edges }, events'⟩ ∧
      d.edges.Inserted slot ⟨(d.nodes.recordAt source).pos, (d.nodes.recordAt target).pos, width,
        color, 0⟩ { source, target } edges ∧
      Relisted d.nodes (d.topology.insertEdge slot source target).adjacent nodes ∧
      ({ d with nodes, edges } : GraphData).Ready ∧
      ({ d with nodes, edges } : GraphData).edgeCount = d.edgeCount + 1 := by
  have hroom := (h.consistent.edges.hasRoom_one_iff h.fitted.edges.2).2 hroom
  obtain ⟨slot₀, edges₀, events₀, hadd, -⟩ := h.consistent.edges.add_one_of_room hroom events
  rcases h.consistent.addEdge_of_live hsource htarget width color events with
    ⟨f, hfail, -⟩ | ⟨slot, nodes, edges, events', heq, hins, hlist⟩
  · rw [hadd] at hfail
    cases hfail
  · have hfitted := keptByParts_fitted.addEdge source target width color ⟨d, events⟩ h.fitted
    have hcons := (h.consistent.addEdge source target width color events).consistent h.consistent
    rw [Edit.after_of_ok heq] at hfitted hcons
    exact ⟨slot, nodes, edges, events', heq, hins, hlist,
      ⟨hcons, ⟨hlist.toKept.tidy h.tidy.nodes, hins.tidy h.tidy.edges⟩, hfitted⟩,
      hins.liveCount_eq h.consistent.edges h.tidy.edges⟩

end GraphData

end LiveGraph
