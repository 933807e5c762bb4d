import LiveGraph.Record

/-!
# The topology of a graph

What remains of a graph when records are forgotten: which slots hold nodes and edges, where the edges
end, and which edges a node lists as its own. `Topology.Linked` says that the lists are right, and
every change that the graph makes to its topology keeps them so.
-/

namespace LiveGraph

/-- Nodes and edges by their slots, the ends of the edges, and the edge lists of the nodes. The last
two also have values for slots that hold nothing. -/
@[ext] structure Topology where
  node : Nat → Prop
  edge : Nat → Prop
  ends : Nat → EdgeData
  adjacent : Nat → List Nat

namespace Topology

/-- An edge starts or ends at a node. -/
def Meets (t : Topology) (e n : Nat) : Prop := (t.ends e).source = n ∨ (t.ends e).target = n

/-- Edges end at nodes, and a node lists the edges that meet it, once each. -/
structure Linked (t : Topology) : Prop where
  node_of_meets : ∀ e, t.edge e → ∀ n, t.Meets e n → t.node n
  mem_adjacent : ∀ n, t.node n → ∀ e, e ∈ t.adjacent n ↔ t.edge e ∧ t.Meets e n
  nodup : ∀ n, (t.adjacent n).Nodup

/-- A new node without edges. -/
def insertNode (t : Topology) (slot : Nat) : Topology :=
  { t with
    node := fun n => n = slot ∨ t.node n
    adjacent := fun n => if n = slot then [] else t.adjacent n }

/-- A new edge, listed by its ends; a loop is listed once. -/
def insertEdge (t : Topology) (slot source target : Nat) : Topology :=
  { t with
    edge := fun e => e = slot ∨ t.edge e
    ends := fun e => if e = slot then { source, target } else t.ends e
    adjacent := fun n =>
      if n = source ∨ n = target then t.adjacent n ++ [slot] else t.adjacent n }

/-- An edge less; its ends strike it from their lists. -/
def deleteEdge (t : Topology) (slot : Nat) : Topology :=
  { t with
    edge := fun e => t.edge e ∧ e ≠ slot
    adjacent := fun n =>
      if n = (t.ends slot).source ∨ n = (t.ends slot).target then
        (t.adjacent n).filter (· != slot)
      else t.adjacent n }

/-- A node less. -/
def deleteNode (t : Topology) (slot : Nat) : Topology :=
  { t with node := fun n => t.node n ∧ n ≠ slot }

/-- The node has another edge list. -/
def relist (t : Topology) (slot : Nat) (edges : List Nat) : Topology :=
  { t with adjacent := fun n => if n = slot then edges else t.adjacent n }

/-- Giving a node its own list changes nothing. -/
theorem relist_eq_self {t : Topology} {slot : Nat} {edges : List Nat}
    (h : t.adjacent slot = edges) : t.relist slot edges = t := by
  refine Topology.ext rfl rfl rfl ?_
  funext n
  show (if n = slot then edges else t.adjacent n) = t.adjacent n
  by_cases hn : n = slot
  · rw [if_pos hn, hn, h]
  · rw [if_neg hn]

theorem linked_empty {ends : Nat → EdgeData} :
    Linked ⟨fun _ => False, fun _ => False, ends, fun _ => []⟩ where
  node_of_meets _ he := he.elim
  mem_adjacent _ hn := hn.elim
  nodup _ := List.nodup_nil

/-- A slot that holds no node meets no edge, so it can become a node with an empty list. -/
theorem Linked.insertNode {t : Topology} (h : t.Linked) {slot : Nat} (hslot : ¬ t.node slot) :
    (t.insertNode slot).Linked where
  node_of_meets e he n hn := .inr (h.node_of_meets e he n hn)
  mem_adjacent n hn e := by
    show e ∈ (if n = slot then [] else t.adjacent n) ↔ t.edge e ∧ t.Meets e n
    by_cases hns : n = slot
    · subst hns
      rw [if_pos rfl]
      constructor
      · intro hin
        exact absurd hin List.not_mem_nil
      · rintro ⟨he, hmeets⟩
        exact absurd (h.node_of_meets e he n hmeets) hslot
    · rw [if_neg hns]
      exact h.mem_adjacent n (hn.resolve_left hns) e
  nodup n := by
    show (if n = slot then [] else t.adjacent n).Nodup
    split
    · exact List.nodup_nil
    · exact h.nodup n

/-- A slot that holds no edge is in no node's list, so it can become an edge between nodes. -/
theorem Linked.insertEdge {t : Topology} (h : t.Linked) {slot source target : Nat}
    (hslot : ¬ t.edge slot) (hsource : t.node source) (htarget : t.node target) :
    (t.insertEdge slot source target).Linked := by
  -- the new edge has its own ends, and the others keep theirs
  have hmeets : ∀ e n, (t.insertEdge slot source target).Meets e n ↔
      if e = slot then n = source ∨ n = target else t.Meets e n := by
    intro e n
    by_cases hes : e = slot
    · simp [Meets, Topology.insertEdge, hes, eq_comm]
    · simp [Meets, Topology.insertEdge, hes]
  refine ⟨fun e he n hn => ?_, fun n hn e => ?_, fun n => ?_⟩
  · rw [hmeets] at hn
    by_cases hes : e = slot
    · rw [if_pos hes] at hn
      rcases hn with rfl | rfl
      · exact hsource
      · exact htarget
    · rw [if_neg hes] at hn
      exact h.node_of_meets e (he.resolve_left hes) n hn
  · have hold := h.mem_adjacent n hn e
    rw [hmeets]
    show e ∈ (if n = source ∨ n = target then t.adjacent n ++ [slot] else t.adjacent n) ↔
      (e = slot ∨ t.edge e) ∧ _
    by_cases hes : e = slot
    · subst hes
      have hout : e ∉ t.adjacent n := fun hin => hslot (hold.1 hin).1
      by_cases hend : n = source ∨ n = target
      · simp [hend]
      · simp [hend, hout]
    · by_cases hend : n = source ∨ n = target
      · simp [hend, hes, hold]
      · simp [hend, hes, hold]
  · show (if n = source ∨ n = target then t.adjacent n ++ [slot] else t.adjacent n).Nodup
    split
    · next hend =>
      have hn : t.node n := by
        rcases hend with rfl | rfl
        · exact hsource
        · exact htarget
      have hout : slot ∉ t.adjacent n := fun hin => hslot ((h.mem_adjacent n hn slot).1 hin).1
      rw [List.nodup_append]
      refine ⟨h.nodup n, List.nodup_cons.2 ⟨List.not_mem_nil, List.nodup_nil⟩, ?_⟩
      intro a ha b hb hab
      rw [List.mem_singleton] at hb
      exact hout (hb ▸ hab ▸ ha)
    · exact h.nodup n

/-- Once an edge is struck from the lists of its ends, it is in no list. -/
theorem Linked.deleteEdge {t : Topology} (h : t.Linked) (slot : Nat) :
    (t.deleteEdge slot).Linked where
  node_of_meets e he n hn := h.node_of_meets e he.1 n hn
  mem_adjacent n hn e := by
    have hold := h.mem_adjacent n hn e
    show e ∈ (if n = (t.ends slot).source ∨ n = (t.ends slot).target then
      (t.adjacent n).filter (· != slot) else t.adjacent n) ↔ (t.edge e ∧ e ≠ slot) ∧ t.Meets e n
    by_cases hend : n = (t.ends slot).source ∨ n = (t.ends slot).target
    · rw [if_pos hend, List.mem_filter, hold, bne_iff_ne]
      exact ⟨fun ⟨⟨he, hm⟩, hne⟩ => ⟨⟨he, hne⟩, hm⟩, fun ⟨⟨he, hne⟩, hm⟩ => ⟨⟨he, hm⟩, hne⟩⟩
    · -- a node that the edge does not meet did not list it
      rw [if_neg hend, hold]
      constructor
      · rintro ⟨he, hm⟩
        refine ⟨⟨he, ?_⟩, hm⟩
        rintro rfl
        exact hend (hm.imp Eq.symm Eq.symm)
      · rintro ⟨⟨he, -⟩, hm⟩
        exact ⟨he, hm⟩
  nodup n := by
    show (if n = (t.ends slot).source ∨ n = (t.ends slot).target then
      (t.adjacent n).filter (· != slot) else t.adjacent n).Nodup
    split
    · exact (h.nodup n).filter _
    · exact h.nodup n

/-- A list of edges that meet their node loses those that are deleted, and keeps its order. -/
theorem adjacent_foldl_deleteEdge {t : Topology} {n : Nat} (h : ∀ e ∈ t.adjacent n, t.Meets e n)
    (es : List Nat) : (es.foldl deleteEdge t).adjacent n = (t.adjacent n).filter (· ∉ es) := by
  induction es generalizing t with
  | nil =>
    symm
    rw [List.foldl_nil, List.filter_eq_self]
    intro x _
    rfl
  | cons e es ih =>
    -- a node that the edge does not meet does not list it, so nothing is struck there
    have hstruck : (t.deleteEdge e).adjacent n = (t.adjacent n).filter (· != e) := by
      show (if n = (t.ends e).source ∨ n = (t.ends e).target then _ else _) = _
      by_cases hend : n = (t.ends e).source ∨ n = (t.ends e).target
      · rw [if_pos hend]
      · rw [if_neg hend]
        symm
        rw [List.filter_eq_self]
        intro x hx
        rw [bne_iff_ne]
        rintro rfl
        exact hend ((h x hx).imp Eq.symm Eq.symm)
    have hnext : ∀ x ∈ (t.deleteEdge e).adjacent n, (t.deleteEdge e).Meets x n := by
      intro x hx
      rw [hstruck] at hx
      exact h x (List.mem_filter.1 hx).1
    rw [List.foldl_cons, ih hnext, hstruck, List.filter_filter]
    apply List.filter_congr
    intro x _
    rw [Bool.eq_iff_iff, Bool.and_eq_true, decide_eq_true_iff, decide_eq_true_iff, bne_iff_ne,
      List.mem_cons, not_or, and_comm]

/-- A node that lists no edges can go. -/
theorem Linked.deleteNode {t : Topology} (h : t.Linked) {slot : Nat} (hslot : t.node slot)
    (hnone : t.adjacent slot = []) : (t.deleteNode slot).Linked where
  node_of_meets e he n hn := by
    refine ⟨h.node_of_meets e he n hn, ?_⟩
    rintro rfl
    have hin := (h.mem_adjacent n hslot e).2 ⟨he, hn⟩
    rw [hnone] at hin
    exact absurd hin List.not_mem_nil
  mem_adjacent n hn e := h.mem_adjacent n hn.1 e
  nodup := h.nodup

/-- While a node is taken apart, its own list may be ahead of the edges that are still there. -/
theorem Linked.deleteEdge_relist {t : Topology} {n e : Nat} {edges : List Nat}
    (h : (t.relist n (e :: edges)).Linked) (hn : t.node n) :
    ((t.deleteEdge e).relist n edges).Linked := by
  have hlist : (t.relist n (e :: edges)).adjacent n = e :: edges := if_pos rfl
  have hnodup := h.nodup n
  rw [hlist, List.nodup_cons] at hnodup
  have hmeets : t.Meets e n := by
    have hin := h.mem_adjacent n hn e
    rw [hlist] at hin
    exact (hin.1 List.mem_cons_self).2
  have heq : (t.deleteEdge e).relist n edges = (t.relist n (e :: edges)).deleteEdge e := by
    refine Topology.ext rfl rfl rfl ?_
    funext m
    show (if m = n then edges else (t.deleteEdge e).adjacent m)
      = if m = (t.ends e).source ∨ m = (t.ends e).target then
          ((t.relist n (e :: edges)).adjacent m).filter (· != e)
        else (t.relist n (e :: edges)).adjacent m
    by_cases hm : m = n
    · subst hm
      have hkeep : edges.filter (· != e) = edges := by
        rw [List.filter_eq_self]
        intro x hx
        rw [bne_iff_ne]
        rintro rfl
        exact hnodup.1 hx
      rw [if_pos rfl, if_pos (hmeets.imp Eq.symm Eq.symm), hlist, List.filter_cons_of_neg (by simp),
        hkeep]
    · have hother : (t.relist n (e :: edges)).adjacent m = t.adjacent m := if_neg hm
      rw [if_neg hm, hother]
      rfl
  rw [heq]
  exact h.deleteEdge e

end Topology

end LiveGraph
