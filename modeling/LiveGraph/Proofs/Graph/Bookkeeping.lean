import LiveGraph.Proofs.Graph.Change
import LiveGraph.Proofs.Graph.Replication

/-!
# Which slots are free

A store knows in two ways that a slot holds nothing: the slot is on the free list, and its record is
marked as deleted. A store by itself lets the two differ, for a record with the mark can be written to a
slot that is not free. A graph clears the mark in every record it is given, so there the two agree: a
slot that was handed out is free, or it is live. The counts of elements, which look at the free list
only, are then the numbers of live slots.
-/

namespace LiveGraph

namespace Store

variable {ρ τ : Type} [Record ρ]

/-! ## Stores without half-deleted slots -/

/-- A slot that was handed out and is not free is live. -/
def Tidy (s : Store ρ τ) : Prop := ∀ x, s.Taken x → s.isLive x = true

theorem tidy_empty (config : StoreConfig) : ({ config } : Store ρ τ).Tidy := by
  intro x hx
  exact absurd hx.1 (Nat.not_lt_zero x)

section

variable [Inhabited τ] {s s' : Store ρ τ}

/-- Writing records leaves no half-deleted slot. -/
theorem SameElements.tidy (hs : SameElements s s') (h : s.Tidy) : s'.Tidy := by
  intro x hx
  rw [hs.live]
  exact h x ((hs.taken x).1 hx)

/-- A new element is live as soon as its slot is taken. -/
theorem Inserted.tidy {slot : Nat} {r : ρ} {d : τ} (hs : Inserted s slot r d s') (h : s.Tidy) :
    s'.Tidy := by
  intro x hx
  exact (hs.live x).2 (((hs.taken x).1 hx).imp_right (h x))

/-- A deleted element gives its slot up at once. -/
theorem Erased.tidy {slots : List Nat} (hs : Erased s slots s') (h : s.Tidy) : s'.Tidy := by
  intro x hx
  obtain ⟨htaken, hrest⟩ := (hs.taken x).1 hx
  exact (hs.live x).2 ⟨h x htaken, hrest⟩

end

/-! ## What the free list then says -/

/-- The free list of a store agrees with the marks in its records. -/
structure Bookkept (s : Store ρ τ) : Prop where
  /-- A slot is free exactly if its record is marked as deleted. -/
  marked : ∀ slot, slot < s.len →
    ∃ r, s.record slot = .ok r ∧ (slot ∈ s.free ↔ Record.isDeleted r = true)
  /-- The live slots are those that are not free. -/
  live : ∀ slot, slot < s.len → (s.isLive slot = true ↔ slot ∉ s.free)
  /-- The live slots are listed with their records. -/
  listed : ∀ slot r, (slot, r) ∈ s.live ↔ s.isLive slot = true ∧ s.record slot = .ok r
  /-- They are listed in increasing order. -/
  increasing : s.live.Pairwise fun a b => a.1 < b.1
  /-- They are counted. -/
  counted : s.liveCount = s.live.length

variable {s : Store ρ τ}

/-- In a tidy store the free list decides which slots are live. -/
theorem WellFormed.isLive_iff_not_free (h : s.WellFormed) (ht : s.Tidy) {x : Nat} (hx : x < s.len) :
    s.isLive x = true ↔ x ∉ s.free := by
  rw [h.freeList.mem_free, Bool.not_eq_true]
  constructor
  · intro hlive
    exact ((h.isLive_iff x).1 hlive).2.1
  · intro hfree
    exact ht x ⟨hx, hfree⟩

/-- Of the slots that were handed out, those that are live are listed with their records. -/
theorem WellFormed.live_eq_map (h : s.WellFormed) :
    s.live = ((List.range s.len).filter s.isLive).map fun x => (x, s.recordAt x) := by
  unfold live
  induction List.range s.len with
  | nil => rfl
  | cons x xs ih =>
    cases hlive : s.isLive x with
    | false => simp [hlive, ih]
    | true =>
      have hrecord : (s.record x).toOption = some (s.recordAt x) := by
        rw [h.record_eq (h.lt_of_isLive hlive)]
        rfl
      simp [hlive, hrecord, ih]

/-- The listing names the live slots with their records. -/
theorem WellFormed.mem_live (h : s.WellFormed) (slot : Nat) (r : ρ) :
    (slot, r) ∈ s.live ↔ s.isLive slot = true ∧ s.record slot = .ok r := by
  rw [h.live_eq_map, List.mem_map]
  constructor
  · rintro ⟨x, hx, heq⟩
    obtain ⟨-, hlive⟩ := List.mem_filter.1 hx
    cases heq
    exact ⟨hlive, h.record_eq (h.lt_of_isLive hlive)⟩
  · rintro ⟨hlive, hrecord⟩
    rw [h.record_eq (h.lt_of_isLive hlive)] at hrecord
    cases hrecord
    have hslot : slot < s.len := ((h.isLive_iff slot).1 hlive).1
    exact ⟨slot, List.mem_filter.2 ⟨List.mem_range.2 hslot, hlive⟩, rfl⟩

/-- All that the store says about its slots fits together. -/
theorem WellFormed.bookkept (h : s.WellFormed) (htombs : s.Tombstoned) (htidy : s.Tidy) :
    s.Bookkept where
  marked slot hslot := by
    refine ⟨_, h.record_eq (Nat.lt_of_lt_of_le hslot h.len_le), ?_⟩
    have hlive := h.isLive_iff_not_free htidy hslot
    rw [h.isLive_iff_isDeleted htombs hslot, ← Bool.not_eq_true] at hlive
    exact Decidable.not_iff_not.1 hlive.symm
  live slot hslot := h.isLive_iff_not_free htidy hslot
  listed slot r := h.mem_live slot r
  increasing := by
    rw [h.live_eq_map, List.pairwise_map]
    exact List.pairwise_lt_range.filter _
  counted := by
    have hcount := h.countP_add_free (p := s.isLive) fun x hx => h.isLive_iff_not_free htidy hx
    rw [List.countP_eq_length_filter] at hcount
    rw [liveCount, h.live_eq_map, List.length_map]
    omega

end Store

namespace GraphData

/-- Neither store has half-deleted slots. -/
structure Tidy (d : GraphData) : Prop where
  nodes : d.nodes.Tidy
  edges : d.edges.Tidy

theorem Kept.tidy {s s' : NodeStore} (hs : Kept s s') (h : s.Tidy) : s'.Tidy := by
  intro x hx
  rw [hs.live]
  exact h x ((hs.taken x).1 hx)

theorem Dropped.tidy {d d' : GraphData} {es : List Nat} (hd : Dropped d es d') (h : d.Tidy) :
    d'.Tidy :=
  ⟨hd.nodes.tidy h.nodes, hd.edges.tidy h.edges⟩

/-- No call leaves a half-deleted slot: records are cleared of the mark before they are written. -/
theorem Change.tidy {t : Tracked GraphData} {c : Call} {d : GraphData} (hc : Change t c d)
    (h : t.value.Tidy) : d.Tidy := by
  cases hc with
  | refused _ => exact h
  | redrawn _ hnodes hedges => exact ⟨hnodes.tidy h.nodes, hedges.tidy h.edges⟩
  | nodeAdded _ hins => exact ⟨hins.tidy h.nodes, h.edges⟩
  | edgeAdded _ hins hkept => exact ⟨hkept.tidy h.nodes, hins.tidy h.edges⟩
  | edgeRemoved hdropped => exact hdropped.tidy h
  | nodeRemoved _ _ hdropped herased =>
    exact ⟨herased.tidy (hdropped.tidy h).nodes, (hdropped.tidy h).edges⟩
  | @attributed k _ _ _ =>
    cases k with
    | node => exact ⟨h.nodes, h.edges⟩
    | edge => exact ⟨h.nodes, h.edges⟩

/-- In both stores a slot that was handed out is free, or it is live. -/
theorem tidy_run {config : GraphConfig} {d₀ : GraphData} (hnew : GraphData.new config = .ok d₀)
    (calls : List Call) : (run d₀ calls).value.Tidy := by
  apply change_induction (consistent_new hnew)
  · obtain ⟨-, rfl⟩ := new_eq_ok_iff.1 hnew
    exact ⟨Store.tidy_empty _, Store.tidy_empty _⟩
  · exact fun t c d hc ht => hc.tidy ht

/-- Free slots are marked in both stores, since replicas can rely on it. -/
theorem tombstoned_run {config : GraphConfig} {d₀ : GraphData} (hnew : GraphData.new config = .ok d₀)
    (calls : List Call) :
    (run d₀ calls).value.nodes.Tombstoned ∧ (run d₀ calls).value.edges.Tombstoned := by
  obtain ⟨hv, rfl⟩ := new_eq_ok_iff.1 hnew
  have hstart : KeptUp {}
      ⟨GraphData.mk { config := config.nodes } { config := config.edges } {} {}, #[]⟩ :=
    ⟨{}, .nil _, ⟨Store.replicated_empty hv.1, Store.replicated_empty hv.2⟩, rfl⟩
  obtain ⟨r, -, hr, -⟩ := run_induction hstart (fun t c ht => keptUp_call c {} t ht) calls
  exact ⟨hr.nodes.tombstoned, hr.edges.tombstoned⟩

/-- After any calls on a new graph, the slots that were handed out are free exactly if their records
are marked as deleted, in both stores; the live ones are the others, listed in increasing order and
counted right. -/
theorem live_slots_bookkept {config : GraphConfig} {d₀ : GraphData}
    (hnew : GraphData.new config = .ok d₀) (calls : List Call) :
    (run d₀ calls).value.nodes.Bookkept ∧ (run d₀ calls).value.edges.Bookkept ∧
      (run d₀ calls).value.nodeCount = (run d₀ calls).value.nodes.live.length ∧
      (run d₀ calls).value.edgeCount = (run d₀ calls).value.edges.live.length := by
  have h := consistent_run (consistent_new hnew) calls
  obtain ⟨hnodes, hedges⟩ := tombstoned_run hnew calls
  have htidy := tidy_run hnew calls
  have hn := h.nodes.bookkept hnodes htidy.nodes
  have he := h.edges.bookkept hedges htidy.edges
  exact ⟨hn, he, hn.counted, he.counted⟩

/-- Nodes are added and changed with records that are marked as deleted. The first one is removed, with
its edge, and both slots are used again; then the second one goes, and its edge with it. -/
def markedRecords : List Call :=
  [.addNode (Record.markDeleted default), .addNode default, .addEdge 0 1 default default,
   .updateNode 1 Record.markDeleted, .removeNode 0, .addNode (Record.markDeleted default),
   .addNode default, .addEdge 1 0 default default, .removeNode 1]

/-- The free slots after that, with blocks of two slots. -/
theorem live_slots_bookkept_marked :
    ∃ d₀, GraphData.new { nodes := ⟨2, 1⟩, edges := ⟨2, 1⟩ } = .ok d₀ ∧
      ((run d₀ markedRecords).value.nodes.len = 3 ∧ (run d₀ markedRecords).value.nodes.free = [1] ∧
        (run d₀ markedRecords).value.edges.len = 1 ∧ (run d₀ markedRecords).value.edges.free = [0]) ∧
      (run d₀ markedRecords).value.nodes.Bookkept ∧ (run d₀ markedRecords).value.edges.Bookkept ∧
      (run d₀ markedRecords).value.nodeCount = (run d₀ markedRecords).value.nodes.live.length ∧
      (run d₀ markedRecords).value.edgeCount = (run d₀ markedRecords).value.edges.live.length := by
  have hnew : GraphData.new { nodes := ⟨2, 1⟩, edges := ⟨2, 1⟩ }
      = .ok { nodes := { config := ⟨2, 1⟩ }, edges := { config := ⟨2, 1⟩ } } := rfl
  exact ⟨_, hnew, by decide +kernel, live_slots_bookkept hnew markedRecords⟩

end GraphData

end LiveGraph
