import LiveGraph.Proofs.Graph.Parts
import LiveGraph.Proofs.Store.Convergence

/-!
# Replicated graphs

A graph replica that applies what an edit of the graph publishes keeps up with both stores. Every
event is accepted by the copy of its kind and passed over by the other one, so what a store tells a
replica can be told to a graph replica, whatever the other store says in between.
-/

namespace LiveGraph

namespace GraphReplica

/-- The replica applies the events one after the other, accepts each of them, and ends as the second
replica. -/
inductive Follows : GraphReplica → List Event → GraphReplica → Prop
  | nil (r : GraphReplica) : Follows r [] r
  | cons {r r₁ r₂ : GraphReplica} {e : Event} {es : List Event} (h : apply e r = .ok () r₁)
      (hs : Follows r₁ es r₂) : Follows r (e :: es) r₂

/-- Events can be followed in two parts. -/
theorem Follows.append {r r₁ r₂ : GraphReplica} {es fs : List Event} (h : Follows r es r₁)
    (h' : Follows r₁ fs r₂) : Follows r (es ++ fs) r₂ := by
  induction h with
  | nil => exact h'
  | cons hstep _ ih => exact .cons hstep (ih h')

theorem apply_task (x : Option String) (r : GraphReplica) :
    apply (.task x) r = .ok () { r with task := x, applied := r.applied + 1 } := rfl

/-- The replica with another copy of a kind. -/
def withCopy (r : GraphReplica) (copy : Replica) : Kind → GraphReplica
  | .node => { r with nodes := copy }
  | .edge => { r with edges := copy }

/-- One copy is replaced, and the other stays. -/
theorem replica_withCopy (r : GraphReplica) (copy : Replica) (k l : Kind) :
    (r.withCopy copy k).replica l = if l = k then copy else r.replica l := by
  cases k <;> cases l <;> rfl

theorem task_withCopy (r : GraphReplica) (copy : Replica) (k : Kind) :
    (r.withCopy copy k).task = r.task := by
  cases k <;> rfl

/-- What the graph replica makes of the answer of a copy. -/
def answered (r : GraphReplica) (k : Kind) :
    EStateM.Result (Failure ReplicaError) Replica Bool →
      EStateM.Result (Failure ReplicaError) GraphReplica Unit
  | .ok _ copy => .ok () { r.withCopy copy k with applied := r.applied + 1 }
  | .error failure copy => .error failure (r.withCopy copy k)

/-- An event for one copy is answered by it, and passed over by the other one. -/
theorem apply_own {e : Event} {r : GraphReplica} {k : Kind} (hkinds : ∀ l, (r.replica l).kind = l)
    (hkind : e.kind? = some k) : apply e r = r.answered k (Replica.apply e (r.replica k)) := by
  -- the copies have different kinds, so the event is not for the other one
  have hother : ∀ l, l ≠ k → Replica.apply e (r.replica l) = .ok false (r.replica l) := by
    intro l hl
    apply Replica.apply_other
    rw [hkinds l]
    exact Event.kind?_ne hkind hl
  have happly : apply e r = (do
      let _ ← onNodes (Replica.apply e)
      let _ ← onEdges (Replica.apply e)
      modify fun r => { r with applied := r.applied + 1 } : Step Unit) r := by
    cases e with
    | task x => cases hkind
    | _ => rfl
  rw [happly]
  cases k with
  | node =>
    have he : Replica.apply e r.edges = .ok false r.edges := hother .edge (by decide)
    show _ = r.answered .node (Replica.apply e r.nodes)
    cases hn : Replica.apply e r.nodes <;> simp only [onNodes, onEdges, bind, EStateM.bind, hn, he] <;>
      rfl
  | edge =>
    have hn : Replica.apply e r.nodes = .ok false r.nodes := hother .node (by decide)
    show _ = r.answered .edge (Replica.apply e r.edges)
    cases he : Replica.apply e r.edges <;> simp only [onNodes, onEdges, bind, EStateM.bind, hn, he] <;>
      rfl

/-- An event that one copy accepts is accepted. -/
theorem apply_copy {e : Event} {r : GraphReplica} {k : Kind} {copy : Replica}
    (hkinds : ∀ l, (r.replica l).kind = l) (h : Replica.apply e (r.replica k) = .ok true copy) :
    apply e r = .ok () { r.withCopy copy k with applied := r.applied + 1 } := by
  have hkind : e.kind? = some k := by
    rw [(Replica.kind_of_apply h).1, hkinds k]
  rw [apply_own hkinds hkind, h]
  rfl

/-- What one copy follows, the graph replica follows, and nothing else of it changes. -/
theorem follows_copy {r : GraphReplica} {k : Kind} {copy : Replica} {es : List Event}
    (hkinds : ∀ l, (r.replica l).kind = l) (h : (r.replica k).Follows es copy) :
    ∃ r', r.Follows es r' ∧ (∀ l, r'.replica l = if l = k then copy else r.replica l) ∧
      r'.task = r.task := by
  -- the induction is on what the copy follows; the graph replica around it changes with every event
  generalize hr : r.replica k = old at h
  induction h generalizing r with
  | nil =>
    refine ⟨r, .nil r, fun l => ?_, rfl⟩
    split
    · next hl => rw [hl, hr]
    · rfl
  | @cons _ c₁ _ e es hstep _ ih =>
    subst hr
    have hkind : c₁.kind = k := (Replica.kind_of_apply hstep).2.trans (hkinds k)
    have hnext : ∀ l, ({ r.withCopy c₁ k with applied := r.applied + 1 } : GraphReplica).replica l
        = if l = k then c₁ else r.replica l := by
      intro l
      rw [← replica_withCopy]
      cases l <;> rfl
    have hkinds' : ∀ l, (({ r.withCopy c₁ k with applied := r.applied + 1 } :
        GraphReplica).replica l).kind = l := by
      intro l
      rw [hnext]
      split
      · next hl => rw [hkind, hl]
      · exact hkinds l
    obtain ⟨r', hfollows, hcopies, htask⟩ := ih hkinds' ((hnext k).trans (if_pos rfl))
    refine ⟨r', .cons (apply_copy hkinds hstep) hfollows, fun l => ?_,
      htask.trans (task_withCopy r c₁ k)⟩
    rw [hcopies, hnext]
    split
    · rfl
    · rfl

/-- News of tasks are always accepted, and the last of them stays. -/
theorem follows_tasks (r : GraphReplica) (told : List (Option String)) :
    ∃ r', r.Follows (told.map .task) r' ∧ r'.nodes = r.nodes ∧ r'.edges = r.edges ∧
      r'.task = told.foldl (fun _ x => x) r.task := by
  induction told generalizing r with
  | nil => exact ⟨r, .nil r, rfl, rfl, rfl⟩
  | cons x told ih =>
    obtain ⟨r', hfollows, hn, he, ht⟩ := ih { r with task := x, applied := r.applied + 1 }
    exact ⟨r', .cons (apply_task x r) hfollows, hn, he, ht⟩

end GraphReplica

namespace Store

variable {ρ τ : Type} [Record ρ]

/-- The store is well-formed, its free slots are marked as deleted, and the replica agrees. -/
structure Replicated (s : Store ρ τ) (r : Replica) : Prop where
  wellFormed : s.WellFormed
  tombstoned : s.Tombstoned
  agrees : s.Agrees r

/-- A new store is replicated by a fresh copy. -/
theorem replicated_empty {config : StoreConfig} (hv : config.Valid) :
    ({ config } : Store ρ τ).Replicated (freshReplica ρ) where
  wellFormed := wellFormed_empty hv
  tombstoned x hx := by simp at hx
  agrees := agrees_empty config

/-- A replica keeps up with every step of a store. -/
theorem Step.replicated [Inhabited τ] {s s' : Store ρ τ} {events : List Event} {r : Replica}
    (hs : Step s events s') (h : s.Replicated r) : ∃ r', r.Follows events r' ∧ s'.Replicated r' := by
  obtain ⟨r', hfollows, hagrees⟩ := hs.agrees h.wellFormed h.agrees
  exact ⟨r', hfollows, hs.wellFormed h.wellFormed, hs.tombstoned h.wellFormed h.tombstoned, hagrees⟩

/-- The replica shows the store: the bytes of the whole array, and of every slot that was handed out
whether it is live. -/
structure ShownBy (s : Store ρ τ) (r : Replica) : Prop where
  bytes : ∃ b, s.snapshot = .ok b ∧ b.toBytes = .ok r.bytes
  live : ∀ slot, slot < s.len → ∃ bytes, r.slot? slot = .ok (some bytes) ∧
    (Record.isDeleted (Record.decode bytes.toList : ρ) = false ↔ s.isLive slot = true)

/-- Without pending changes, a replica that keeps up shows the store. -/
theorem Replicated.shownBy {s : Store ρ τ} {r : Replica} (h : s.Replicated r)
    (hnone : s.pendingChanges = 0) : s.ShownBy r := by
  have hclean := h.wellFormed.not_isDirty_of_pendingChanges hnone
  refine ⟨⟨_, h.wellFormed.snapshot_eq, ?_⟩, fun slot hslot => ?_⟩
  · rw [h.wellFormed.sound_image.toBytes_eq, h.agrees.bytes_eq hclean]
    rfl
  · have hcap : slot < s.capacity := Nat.lt_of_lt_of_le hslot h.wellFormed.len_le
    refine ⟨_, h.agrees.slot?_eq h.wellFormed hcap (hclean slot), ?_⟩
    exact (h.wellFormed.isLive_iff_isDeleted h.tombstoned hslot).symm

end Store

namespace GraphData

/-- Both stores are replicated. -/
structure Replicated (d : GraphData) (r : GraphReplica) : Prop where
  nodes : d.nodes.Replicated r.nodes
  edges : d.edges.Replicated r.edges

theorem Replicated.kinds {d : GraphData} {r : GraphReplica} (h : d.Replicated r) (k : Kind) :
    (r.replica k).kind = k := by
  cases k with
  | node => exact h.nodes.agrees.kind
  | edge => exact h.edges.agrees.kind

/-- A replica that follows what was published since the start keeps up, and knows of no other task
than before. -/
def KeptUp (r₀ : GraphReplica) (t : Tracked GraphData) : Prop :=
  ∃ r, r₀.Follows t.events.toList r ∧ t.value.Replicated r ∧ r.task = r₀.task

/-! ## Calls -/

/-- Operations on the stores are followed, and what leaves both stores alone need not be. -/
theorem keptByParts_keptUp (r₀ : GraphReplica) : KeptByParts (KeptUp r₀) where
  nodes {α act} hact := by
    rintro ⟨d, events⟩ ⟨r, hfollows, h, htask⟩
    obtain ⟨o, deed, new, nodes, hafter, hout⟩ := hact.outcome h.nodes.wellFormed events
    obtain ⟨copy, hcopy, hnodes⟩ := hout.step.replicated h.nodes
    obtain ⟨r', hnew, hcopies, htask'⟩ := GraphReplica.follows_copy (k := .node) h.kinds hcopy
    have hn : r'.nodes = copy := hcopies .node
    have he : r'.edges = r.edges := hcopies .edge
    rw [after_onNodes, hafter]
    refine ⟨r', ?_, ⟨hn ▸ hnodes, he ▸ h.edges⟩, htask'.trans htask⟩
    rw [Array.toList_append]
    exact hfollows.append hnew
  edges {α act} hact := by
    rintro ⟨d, events⟩ ⟨r, hfollows, h, htask⟩
    obtain ⟨o, deed, new, edges, hafter, hout⟩ := hact.outcome h.edges.wellFormed events
    obtain ⟨copy, hcopy, hedges⟩ := hout.step.replicated h.edges
    obtain ⟨r', hnew, hcopies, htask'⟩ := GraphReplica.follows_copy (k := .edge) h.kinds hcopy
    have hn : r'.nodes = r.nodes := hcopies .node
    have he : r'.edges = copy := hcopies .edge
    rw [after_onEdges, hafter]
    refine ⟨r', ?_, ⟨hn ▸ h.nodes, he ▸ hedges⟩, htask'.trans htask⟩
    rw [Array.toList_append]
    exact hfollows.append hnew
  change {f} hnodes hedges := by
    rintro ⟨d, events⟩ ⟨r, hfollows, h, htask⟩
    refine ⟨r, hfollows, ⟨?_, ?_⟩, htask⟩
    · show (f d).nodes.Replicated r.nodes
      rw [hnodes]
      exact h.nodes
    · show (f d).edges.Replicated r.edges
      rw [hedges]
      exact h.edges

theorem keptUp_flush (r₀ : GraphReplica) : Edit.Preserves (KeptUp r₀) flush :=
  (keptByParts_keptUp r₀).flush

/-- A replica keeps up with every call on a graph, also where the call fails. -/
theorem keptUp_call (c : Call) (r₀ : GraphReplica) : Edit.Preserves (KeptUp r₀) c.edit :=
  (keptByParts_keptUp r₀).call c

/-- What a call on a replicated graph publishes is followed, and leads to where the graph then is. -/
theorem Replicated.call {d : GraphData} {r : GraphReplica} (h : d.Replicated r) (c : Call) :
    ∃ r', r.Follows (c.edit.perform d).2.2.toList r' ∧ (c.edit.perform d).2.1.Replicated r' ∧
      r'.task = r.task := by
  rw [Edit.perform_snd]
  exact keptUp_call c r ⟨d, #[]⟩ ⟨r, .nil r, h, rfl⟩

end GraphData

end LiveGraph
