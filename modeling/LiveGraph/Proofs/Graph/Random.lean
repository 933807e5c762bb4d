import LiveGraph.Graph.Random
import LiveGraph.Proofs.Attribute.Plain
import LiveGraph.Proofs.Graph.Capacity

/-!
# What a random graph adds

Filling a graph at random adds as many nodes as asked for and at most as many edges, each between two
different new nodes. The table of labels numbers the new nodes in the order in which they were added, and
the table of weights has the new edges. Everything that was there before stays as it was. This holds for
every sampler whose indices are in range. Those that are drawn from the words of a random source are, wherever
drawing ends.

`GraphData.Furnished` relates the graph before to the graph at any point in between; each step of the two
loops keeps it.
-/

namespace LiveGraph

/-! ## Draws -/

namespace Draw

variable {γ α : Type}

/-- Draws are good in the end. -/
inductive Ends (draw : Draw γ (Bool × α)) : γ → Prop
  | good {g g' : γ} {a : α} (h : draw g = ((true, a), g')) : Ends draw g
  | again {g g' : γ} {a : α} (h : draw g = ((false, a), g')) (hnext : Ends draw g') : Ends draw g

/-- What every draw satisfies, the draw that is taken satisfies, if there is one. -/
theorem Ends.untilGood_of {P : α → Prop} {draw : Draw γ (Bool × α)} {g : γ} (hends : Ends draw g)
    (h : ∀ g, P (draw g).1.2) : P (untilGood draw g).1 := by
  induction hends with
  | @good g g' a hgood =>
    have ha := h g
    rw [hgood] at ha
    rw [untilGood_of_good hgood]
    exact ha
  | again hbad _ ih =>
    rw [untilGood_of_bad hbad]
    exact ih

/-- Indices that are drawn from words are in range, if a word is good in the end wherever drawing starts. -/
theorem inRange_of_ends [RandomSource γ]
    (hends : ∀ n (g : γ), 0 < n → Ends (do return reduce 64 n (← word64).toNat) g) :
    Sampler.InRange γ := by
  intro n g hn
  refine (hends n g hn).untilGood_of (P := (· < n)) fun g => ?_
  show (reduce 64 n (RandomSource.next64 g).1.toNat).2 < n
  have hword : (RandomSource.next64 g).1.toNat < Nat.pow 2 64 := UInt64.toNat_lt _
  exact Nat.div_lt_of_lt_mul (Nat.mul_lt_mul_of_pos_right hword hn)

end Draw

/-! ## Stores that gain elements -/

namespace Store

variable {ρ τ : Type} [Record ρ] [Inhabited τ]

/-- The store gained elements in the new slots, which were not live, and kept all others. -/
structure Gained (s : Store ρ τ) (new : List Nat) (s' : Store ρ τ) : Prop where
  nodup : new.Nodup
  dead : ∀ x ∈ new, s.isLive x = false
  live : ∀ x, s'.isLive x = true ↔ x ∈ new ∨ s.isLive x = true
  record : ∀ x, s.isLive x = true → s'.record x = s.record x
  data : ∀ x, s.isLive x = true → s'.data x = s.data x

omit [Inhabited τ] in
theorem gained_nil (s : Store ρ τ) : Gained s [] s where
  nodup := List.nodup_nil
  dead x hx := absurd hx List.not_mem_nil
  live x := by simp
  record _ _ := rfl
  data _ _ := rfl

/-- An insertion leaves the other elements as they are. -/
theorem Inserted.kept {s s' : Store ρ τ} {slot : Nat} {r : ρ} {d : τ} (hins : Inserted s slot r d s')
    (h : s.WellFormed) {x : Nat} (hx : s.isLive x = true) :
    x ≠ slot ∧ s'.record x = s.record x ∧ s'.data x = s.data x := by
  have hne : x ≠ slot := by
    rintro rfl
    rw [hins.dead] at hx
    cases hx
  have hx' : s'.isLive x = true := (hins.live x).2 (.inr hx)
  have hcap := h.lt_of_isLive hx
  have hcap' := hins.wellFormed.lt_of_isLive hx'
  refine ⟨hne, ?_, ?_⟩
  · rw [h.record_eq hcap, hins.wellFormed.record_eq hcap', hins.record x hx', if_neg hne]
  · rw [h.data_eq hcap, hins.wellFormed.data_eq hcap', hins.data x, if_neg hne]

/-- A store gains one more element. -/
theorem Gained.insert {s s₁ s₂ : Store ρ τ} {new : List Nat} {slot : Nat} {r : ρ} {d : τ}
    (h : Gained s new s₁) (hs₁ : s₁.WellFormed) (hins : Inserted s₁ slot r d s₂) :
    Gained s (new ++ [slot]) s₂ := by
  -- the slot was not live, so it is neither one of the new slots nor an old one
  have hdead : slot ∉ new ∧ s.isLive slot = false := by
    have hnot : ¬ (slot ∈ new ∨ s.isLive slot = true) := by
      rw [← h.live, hins.dead]
      exact Bool.false_ne_true
    exact ⟨fun hmem => hnot (.inl hmem), Bool.eq_false_iff.2 fun hlive => hnot (.inr hlive)⟩
  have hkept : ∀ {x}, s.isLive x = true → _ := fun hx => hins.kept hs₁ ((h.live _).2 (.inr hx))
  refine ⟨?_, ?_, ?_, ?_, ?_⟩
  · refine List.nodup_append.2 ⟨h.nodup, List.nodup_cons.2 ⟨List.not_mem_nil, List.nodup_nil⟩, ?_⟩
    rintro x hx y hy rfl
    exact hdead.1 (List.mem_singleton.1 hy ▸ hx)
  · intro x hx
    rcases List.mem_append.1 hx with hx | hx
    · exact h.dead x hx
    · rw [List.mem_singleton.1 hx]
      exact hdead.2
  · intro x
    rw [hins.live, h.live, List.mem_append, List.mem_singleton]
    constructor
    · rintro (hx | hx | hx)
      · exact .inl (.inr hx)
      · exact .inl (.inl hx)
      · exact .inr hx
    · rintro ((hx | hx) | hx)
      · exact .inr (.inl hx)
      · exact .inl hx
      · exact .inr (.inr hx)
  · exact fun x hx => (hkept hx).2.1.trans (h.record x hx)
  · exact fun x hx => (hkept hx).2.2.trans (h.data x hx)

end Store

namespace GraphData

/-- Nodes that list other edges are as they were, where the lists of the old ones stay. -/
theorem Relisted.gained {s s₁ s₂ : NodeStore} {new : List Nat} {adjacent : Nat → List Nat}
    (hlist : Relisted s₁ adjacent s₂) (h : s.Gained new s₁) (hs₁ : s₁.WellFormed)
    (hold : ∀ x, s.isLive x = true → adjacent x = (s₁.dataAt x).adjacent) : s.Gained new s₂ where
  nodup := h.nodup
  dead := h.dead
  live x := by rw [hlist.live, h.live]
  record x hx := by
    have hx₁ : s₁.isLive x = true := (h.live x).2 (.inr hx)
    have hx₂ : s₂.isLive x = true := (hlist.live x).trans hx₁
    rw [← h.record x hx, hs₁.record_eq (hs₁.lt_of_isLive hx₁),
      hlist.wellFormed.record_eq (hlist.wellFormed.lt_of_isLive hx₂), hlist.record]
  data x hx := by
    have hx₁ : s₁.isLive x = true := (h.live x).2 (.inr hx)
    have hx₂ : s₂.isLive x = true := (hlist.live x).trans hx₁
    -- a node has its list and its count, and nothing else
    have hsame : s₂.dataAt x = s₁.dataAt x := by
      have hadjacent : (s₂.dataAt x).adjacent = (s₁.dataAt x).adjacent :=
        (hlist.adjacent x).trans (hold x hx)
      have hext : ∀ a b : NodeData, a.adjacent = b.adjacent → a.generation = b.generation → a = b := by
        rintro ⟨_, _⟩ ⟨_, _⟩ rfl rfl
        rfl
      exact hext _ _ hadjacent (hlist.generation x)
    rw [← h.data x hx, hs₁.data_eq (hs₁.lt_of_isLive hx₁),
      hlist.wellFormed.data_eq (hlist.wellFormed.lt_of_isLive hx₂), hsame]

/-- The graph before, after the nodes `slots` and the edges `added` were put into it, with their
attributes. -/
structure Furnished (before : GraphData) (slots added : List Nat) (after : GraphData) : Prop where
  nodes : before.nodes.Gained slots after.nodes
  edges : before.edges.Gained added after.edges
  /-- Every new edge joins two different new nodes. -/
  joins : ∀ e ∈ added, ∃ ends, after.edges.data e = .ok ends ∧ ends.source ∈ slots ∧
    ends.target ∈ slots ∧ ends.source ≠ ends.target
  /-- One table is new, which numbers the new nodes in their order. -/
  labels : ∃ t, after.nodeAttributes.tables = before.nodeAttributes.tables ++ [t] ∧
    t.name = "label" ∧ t.type = .text ∧
    ∀ x v, t.get? x = some v ↔ ∃ i : Nat, slots[i]? = some x ∧ v = .text s!"n{i}"
  /-- One table is new, which has the new edges. -/
  weights : ∃ t, after.edgeAttributes.tables = before.edgeAttributes.tables ++ [t] ∧
    t.name = "weight" ∧ t.type = .float ∧ ∀ x, (t.get? x).isSome = true ↔ x ∈ added

/-! ## One node, one edge -/

theorem getElem?_concat_eq_some_iff {l : List Nat} {a x i : Nat} :
    (l ++ [a])[i]? = some x ↔ l[i]? = some x ∨ i = l.length ∧ a = x := by
  rw [List.getElem?_append]
  by_cases hi : i < l.length
  · rw [if_pos hi]
    constructor
    · exact .inl
    · rintro (h | ⟨rfl, -⟩)
      · exact h
      · exact absurd hi (Nat.lt_irrefl _)
  · rw [if_neg hi, List.getElem?_eq_none (Nat.le_of_not_lt hi), List.getElem?_singleton]
    by_cases hlast : i - l.length = 0
    · have heq : i = l.length := by omega
      simp [heq]
    · have hne : i ≠ l.length := by omega
      simp [hlast, hne]

section

variable {before d : GraphData} {slots added : List Nat} (h : Furnished before slots added d)
include h

/-- A new node is numbered after those before it. -/
theorem Furnished.addNode (hd : d.Consistent) {slot : Nat} {r : NodeRecord} {data : NodeData}
    {nodes : NodeStore} (hins : d.nodes.Inserted slot r data nodes) :
    ∃ s, d.nodeAttributes.set "label" slot (.text s!"n{slots.length}") = .ok s ∧
      Furnished before (slots ++ [slot]) added { d with nodes, nodeAttributes := s } := by
  obtain ⟨t, htables, hname, htype, hvalues⟩ := h.labels
  obtain ⟨s, t', hset, htables', hname', htype', hget⟩ := AttributeSet.exists_set_last htables
    (v := .text s!"n{slots.length}") htype.symm slot
  rw [hname] at hset
  -- the noted slots are live, and the new one was not
  have hnew : slot ∉ slots := by
    intro hmem
    have hlive := (h.nodes.live slot).2 (.inl hmem)
    rw [hins.dead] at hlive
    cases hlive
  refine ⟨s, hset, h.nodes.insert hd.nodes hins, h.edges, ?_, ?_, h.weights⟩
  · intro e he
    obtain ⟨ends, hends, hsource, htarget, hne⟩ := h.joins e he
    exact ⟨ends, hends, List.mem_append_left _ hsource, List.mem_append_left _ htarget, hne⟩
  · refine ⟨t', htables', hname'.trans hname, htype'.trans htype, ?_⟩
    intro x v
    rw [hget]
    by_cases hx : x = slot
    · subst hx
      rw [if_pos rfl]
      constructor
      · rintro ⟨⟩
        exact ⟨slots.length, getElem?_concat_eq_some_iff.2 (.inr ⟨rfl, rfl⟩), rfl⟩
      · rintro ⟨i, hi, rfl⟩
        rcases getElem?_concat_eq_some_iff.1 hi with hi | ⟨rfl, -⟩
        · exact absurd (List.mem_of_getElem? hi) hnew
        · rfl
    · rw [if_neg hx, hvalues]
      constructor
      · rintro ⟨i, hi, rfl⟩
        exact ⟨i, getElem?_concat_eq_some_iff.2 (.inl hi), rfl⟩
      · rintro ⟨i, hi, rfl⟩
        rcases getElem?_concat_eq_some_iff.1 hi with hi | ⟨-, rfl⟩
        · exact ⟨i, hi, rfl⟩
        · exact absurd rfl hx

/-- A new edge between two different new nodes is weighted. -/
theorem Furnished.addEdge (hd : d.Consistent) {source target slot : Nat} {r : EdgeRecord}
    {nodes : NodeStore} {edges : EdgeStore} (hsource : source ∈ slots) (htarget : target ∈ slots)
    (hne : source ≠ target) (hins : d.edges.Inserted slot r { source, target } edges)
    (hlist : Relisted d.nodes (d.topology.insertEdge slot source target).adjacent nodes)
    (weight : Double) :
    ∃ s, d.edgeAttributes.set "weight" slot (.float weight) = .ok s ∧
      Furnished before slots (added ++ [slot]) { d with nodes, edges, edgeAttributes := s } := by
  obtain ⟨t, htables, hname, htype, hvalues⟩ := h.weights
  obtain ⟨s, t', hset, htables', hname', htype', hget⟩ := AttributeSet.exists_set_last htables
    (v := .float weight) htype.symm slot
  rw [hname] at hset
  have hslot : slot < edges.capacity := hins.wellFormed.lt_of_isLive ((hins.live slot).2 (.inl rfl))
  refine ⟨s, hset, hlist.gained h.nodes hd.nodes ?_, h.edges.insert hd.edges hins, ?_, h.labels, ?_⟩
  · -- an old node is neither end, so its list stays
    intro x hx
    have hold : ∀ y ∈ slots, x ≠ y := by
      rintro y hy rfl
      rw [h.nodes.dead x hy] at hx
      cases hx
    exact if_neg fun hend => hend.elim (hold source hsource) (hold target htarget)
  · intro e he
    rcases List.mem_append.1 he with he | he
    · obtain ⟨ends, hends, hjoin⟩ := h.joins e he
      exact ⟨ends, (hins.kept hd.edges ((h.edges.live e).2 (.inl he))).2.2.trans hends, hjoin⟩
    · rw [List.mem_singleton.1 he]
      refine ⟨{ source, target }, ?_, hsource, htarget, hne⟩
      show edges.data slot = _
      rw [hins.wellFormed.data_eq hslot, hins.data, if_pos rfl]
  · refine ⟨t', htables', hname'.trans hname, htype'.trans htype, ?_⟩
    intro x
    rw [hget, List.mem_append, List.mem_singleton, ← hvalues]
    by_cases hx : x = slot
    · simp [hx]
    · simp [hx]

end

/-- A change of attributes that succeeds changes only them. -/
theorem onAttributes_of_ok {d : GraphData} {k : Kind}
    {f : AttributeSet → Except AttributeError AttributeSet} {s : AttributeSet}
    (h : f (d.attributes k) = .ok s) (events : Array Event) :
    onAttributes k f ⟨d, events⟩ = .ok () ⟨d.setAttributes k s, events⟩ := by
  rw [onAttributes, Edit.read_bind]
  simp only [h]
  rfl

end GraphData

/-! ## Building -/

namespace RandomGraph

section

variable {γ α β : Type}

/-- Building goes on with what was answered, and with the source as the draws have left it. -/
theorem bind_of_ok {x : Build γ α} {f : α → Build γ β} {g g' : γ} {t t' : Tracked GraphData} {a : α}
    (h : x g t = .ok (a, g') t') : (x >>= f) g t = f a g' t' := by
  show (x g >>= fun (a, g) => f a g) t = f a g' t'
  rw [Edit.bind_of_ok h]

theorem bind_of_error {x : Build γ α} {f : α → Build γ β} {g : γ} {t t' : Tracked GraphData}
    {e : Failure GraphError} (h : x g t = .error e t') : (x >>= f) g t = .error e t' := by
  show (x g >>= fun (a, g) => f a g) t = .error e t'
  rw [Edit.bind_of_error h]

theorem lift_of_ok {x : GraphEdit α} {t t' : Tracked GraphData} {a : α} (h : x t = .ok a t') (g : γ) :
    (liftM x : Build γ α) g t = .ok (a, g) t' := by
  show (x >>= fun a => pure (a, g)) t = .ok (a, g) t'
  rw [Edit.bind_of_ok h]
  rfl

theorem lift_of_error {x : GraphEdit α} {t t' : Tracked GraphData} {e : Failure GraphError}
    (h : x t = .error e t') (g : γ) : (liftM x : Build γ α) g t = .error e t' := by
  show (x >>= fun a => pure (a, g)) t = .error e t'
  rw [Edit.bind_of_error h]

/-- A draw changes the source, and not the graph. -/
theorem draw_bind (d : Draw γ α) (f : α → Build γ β) (g : γ) (t : Tracked GraphData) :
    (draw d >>= f) g t = f (d g).1 (d g).2 t := rfl

end

section

variable {γ : Type} [Sampler γ] {before d : GraphData} {slots added : List Nat}

/-- Below the limit a node is added and numbered. -/
theorem addNode_eq (h : before.Furnished slots added d) (hd : d.Ready)
    (hroom : d.nodeCount < Store.roomLimit NodeRecord) (g : γ) (events : Array Event) :
    ∃ slot g' d' events', addNode slots.length g ⟨d, events⟩ = .ok (slot, g') ⟨d', events'⟩ ∧
      before.Furnished (slots ++ [slot]) added d' ∧ d'.Ready ∧ d'.nodeCount = d.nodeCount + 1 ∧
      d'.edgeCount = d.edgeCount := by
  obtain ⟨slot, nodes, events', heq, hins, hready, hcount⟩ := hd.addNode hroom (node g).1 events
  obtain ⟨s, hset, hnext⟩ := h.addNode hd.consistent hins
  have hlabel := GraphData.onAttributes_of_ok (d := { d with nodes }) (k := .node) (s := s)
    (f := (·.set "label" slot (.text s!"n{slots.length}"))) hset events'
  rw [addNode, draw_bind, bind_of_ok (lift_of_ok heq _), bind_of_ok (lift_of_ok hlabel _)]
  exact ⟨slot, _, _, events', rfl, hnext, hready.setAttributes .node s, hcount, rfl⟩

/-- At the limit no node is added. -/
theorem addNode_full (hd : d.Ready) (hfull : Store.roomLimit NodeRecord ≤ d.nodeCount) (i : Nat) (g : γ)
    (events : Array Event) : ∃ f t, addNode i g ⟨d, events⟩ = .error (.fault f) t := by
  obtain ⟨f, heq⟩ := hd.addNode_full hfull (node g).1 events
  rw [addNode, draw_bind, bind_of_error (lift_of_error heq _)]
  exact ⟨f, _, rfl⟩

/-- Nodes are added one after the other, as long as there is room. -/
theorem addNodes_eq (n : Nat) (noted : Array Nat) (h : before.Furnished noted.toList added d)
    (hd : d.Ready) (hroom : d.nodeCount + n ≤ Store.roomLimit NodeRecord) (g : γ) (events : Array Event) :
    ∃ noted' g' d' events', addNodes n noted.size noted g ⟨d, events⟩
        = .ok (noted', g') ⟨d', events'⟩ ∧
      before.Furnished noted'.toList added d' ∧ d'.Ready ∧ noted'.size = noted.size + n ∧
      d'.edgeCount = d.edgeCount := by
  induction n generalizing noted d g events with
  | zero => exact ⟨noted, g, d, events, rfl, h, hd, rfl, rfl⟩
  | succ n ih =>
    obtain ⟨slot, g₁, d₁, events₁, heq, h₁, hd₁, hnodes, hedges⟩ :=
      addNode_eq h hd (by omega) g events
    rw [Array.length_toList] at heq
    rw [← Array.toList_push] at h₁
    obtain ⟨noted', g', d', events', hrest, h', hd', hsize, hedges'⟩ :=
      ih _ h₁ hd₁ (by omega) g₁ events₁
    rw [Array.size_push] at hrest hsize
    refine ⟨noted', g', d', events', ?_, h', hd', by omega, hedges'.trans hedges⟩
    rw [addNodes, bind_of_ok heq]
    exact hrest

/-- More nodes than there is room for are not added. -/
theorem addNodes_full (n : Nat) (noted : Array Nat) (h : before.Furnished noted.toList added d)
    (hd : d.Ready) (hfull : Store.roomLimit NodeRecord < d.nodeCount + n) (g : γ) (events : Array Event) :
    ∃ f t, addNodes n noted.size noted g ⟨d, events⟩ = .error (.fault f) t := by
  induction n generalizing noted d g events with
  | zero => exact absurd hfull (Nat.not_lt.2 hd.nodeCount_le)
  | succ n ih =>
    by_cases hroom : d.nodeCount < Store.roomLimit NodeRecord
    · obtain ⟨slot, g₁, d₁, events₁, heq, h₁, hd₁, hnodes, -⟩ := addNode_eq h hd hroom g events
      rw [Array.length_toList] at heq
      rw [← Array.toList_push] at h₁
      obtain ⟨f, t, hrest⟩ := ih _ h₁ hd₁ (by omega) g₁ events₁
      rw [Array.size_push] at hrest
      refine ⟨f, t, ?_⟩
      rw [addNodes, bind_of_ok heq]
      exact hrest
    · obtain ⟨f, t, heq⟩ := addNode_full hd (Nat.le_of_not_lt hroom) noted.size g events
      exact ⟨f, t, by rw [addNodes, bind_of_error heq]⟩

/-- A pair of nodes is drawn. Two different ones are joined, if there is room. -/
theorem addEdge_eq (hrange : Sampler.InRange γ) {noted : Array Nat} (hsome : 0 < noted.size)
    (h : before.Furnished noted.toList added d) (hd : d.Ready)
    (hroom : d.edgeCount < Store.roomLimit EdgeRecord) (g : γ) (events : Array Event) :
    ∃ added' g' d' events', addEdge noted g ⟨d, events⟩ = .ok ((), g') ⟨d', events'⟩ ∧
      before.Furnished noted.toList added' d' ∧ d'.Ready ∧ added'.length ≤ added.length + 1 ∧
      d'.edgeCount ≤ d.edgeCount + 1 := by
  -- indices that were drawn are those of noted nodes
  have hmem : ∀ i, i < noted.size → noted.getD i 0 ∈ noted.toList := by
    intro i hi
    rw [Array.getD, dif_pos hi]
    exact Array.getElem_mem_toList hi
  have hsource := hmem _ (hrange _ g hsome)
  have htarget := hmem _ (hrange _ (Sampler.index noted.size g).2 hsome)
  rw [addEdge, draw_bind, draw_bind]
  generalize (Sampler.index noted.size (Sampler.index noted.size g).2).2 = g₁
  generalize noted.getD (Sampler.index noted.size g).1 0 = source at hsource ⊢
  generalize noted.getD (Sampler.index noted.size (Sampler.index noted.size g).2).1 0 = target at htarget ⊢
  by_cases hne : source ≠ target
  · have hlive : ∀ x ∈ noted.toList, d.nodes.isLive x = true := fun x hx => (h.nodes.live x).2 (.inl hx)
    obtain ⟨slot, nodes, edges, events', heq, hins, hlist, hready, hcount⟩ :=
      hd.addEdge hroom (hlive source hsource) (hlive target htarget) ⟨0x3f000000⟩ ⟨128, 128, 128⟩ events
    obtain ⟨s, hset, hnext⟩ := h.addEdge hd.consistent hsource htarget hne hins hlist (Sampler.fraction g₁).1
    have hweight := GraphData.onAttributes_of_ok (d := { d with nodes, edges }) (k := .edge) (s := s)
      (f := (·.set "weight" slot (.float (Sampler.fraction g₁).1))) hset events'
    rw [if_pos hne, bind_of_ok (lift_of_ok heq _), draw_bind, lift_of_ok hweight]
    exact ⟨added ++ [slot], _, _, events', rfl, hnext, hready.setAttributes .edge s,
      Nat.le_of_eq List.length_append, Nat.le_of_eq hcount⟩
  · rw [if_neg hne]
    exact ⟨added, g₁, d, events, rfl, h, hd, Nat.le_succ _, Nat.le_succ _⟩

/-- Pairs are drawn one after the other. -/
theorem repeatBuild_addEdge_eq (hrange : Sampler.InRange γ) (n : Nat) {noted : Array Nat}
    (hsome : 0 < noted.size)
    (h : before.Furnished noted.toList added d) (hd : d.Ready)
    (hroom : d.edgeCount + n ≤ Store.roomLimit EdgeRecord) (g : γ) (events : Array Event) :
    ∃ added' g' d' events', repeatBuild (addEdge noted) n g ⟨d, events⟩
        = .ok ((), g') ⟨d', events'⟩ ∧
      before.Furnished noted.toList added' d' ∧ added'.length ≤ added.length + n := by
  induction n generalizing added d g events with
  | zero => exact ⟨added, g, d, events, rfl, h, Nat.le_refl _⟩
  | succ n ih =>
    obtain ⟨added₁, g₁, d₁, events₁, heq, h₁, hd₁, hlength, hcount⟩ :=
      addEdge_eq hrange hsome h hd (by omega) g events
    obtain ⟨added', g', d', events', hrest, h', hlength'⟩ := ih h₁ hd₁ (by omega) g₁ events₁
    refine ⟨added', g', d', events', ?_, h', by omega⟩
    rw [repeatBuild, bind_of_ok heq]
    exact hrest

/-- The tables are created first, where they are new. Then the nodes and edges follow. -/
theorem build_eq (hd : d.Ready) (hlabel : "label" ∉ d.nodeAttributes.names)
    (hweight : "weight" ∉ d.edgeAttributes.names) (nodes edges : Nat) (g : γ) (events : Array Event) :
    ∃ d₁, d.Furnished [] [] d₁ ∧ d₁.Ready ∧ d₁.nodeCount = d.nodeCount ∧ d₁.edgeCount = d.edgeCount ∧
      build nodes edges g ⟨d, events⟩
        = if fitsArray nodes slotWidth = true then
            (addNodes nodes 0 #[] >>= fun noted =>
              if 2 ≤ noted.size then repeatBuild (addEdge noted) edges else pure () : Build γ Unit)
              g ⟨d₁, events⟩
          else .error (.fault .overflow) ⟨d₁, events⟩ := by
  obtain ⟨s, hs, htables⟩ := AttributeSet.exists_create hlabel .text
  obtain ⟨s', hs', htables'⟩ := AttributeSet.exists_create hweight .float
  have hcreate := GraphData.onAttributes_of_ok (d := d) (k := .node) (s := s)
    (f := (·.create "label" .text)) hs events
  have hcreate' := GraphData.onAttributes_of_ok (d := d.setAttributes .node s) (k := .edge) (s := s')
    (f := (·.create "weight" .float)) hs' events
  -- two empty tables are there, and nothing else has changed
  refine ⟨(d.setAttributes .node s).setAttributes .edge s', ⟨Store.gained_nil _, Store.gained_nil _,
    fun e he => absurd he List.not_mem_nil, ?_, ?_⟩, (hd.setAttributes _ _).setAttributes _ _, rfl, rfl,
    ?_⟩
  · refine ⟨_, htables, rfl, rfl, ?_⟩
    intro x v
    simp [AttributeTable.get?, AttributeTable.new, Column.get?_empty]
  · refine ⟨_, htables', rfl, rfl, ?_⟩
    intro x
    simp [AttributeTable.get?, AttributeTable.new, Column.get?_empty]
  · rw [build, bind_of_ok (lift_of_ok hcreate g), bind_of_ok (lift_of_ok hcreate' g)]
    cases fitsArray nodes slotWidth with
    | true => rfl
    | false => rfl

end

end RandomGraph

/-! ## Filling a graph -/

namespace GraphData

variable {γ : Type} [Sampler γ]

theorem addRandom_of_build_ok {nodes edges : Nat} {g g' : γ} {t t' : Tracked GraphData}
    (h : RandomGraph.build nodes edges g t = .ok ((), g') t') :
    addRandom nodes edges g t = .ok g' t' := by
  show (RandomGraph.build nodes edges g >>= fun built => pure built.2 : GraphEdit γ) t = _
  rw [Edit.bind_of_ok h]
  rfl

theorem addRandom_of_build_error {nodes edges : Nat} {g : γ} {t t' : Tracked GraphData}
    {e : Failure GraphError} (h : RandomGraph.build nodes edges g t = .error e t') :
    addRandom nodes edges g t = .error e t' := by
  show (RandomGraph.build nodes edges g >>= fun built => pure built.2 : GraphEdit γ) t = _
  rw [Edit.bind_of_error h]

/-- With room for all nodes and edges, a graph without the two tables is filled. -/
theorem Ready.addRandom (hrange : Sampler.InRange γ) {d : GraphData} (hd : d.Ready)
    (hlabel : "label" ∉ d.nodeAttributes.names) (hweight : "weight" ∉ d.edgeAttributes.names)
    {nodes edges : Nat}
    (hnodes : d.nodeCount + nodes ≤ Store.roomLimit NodeRecord)
    (hedges : 2 ≤ nodes → d.edgeCount + edges ≤ Store.roomLimit EdgeRecord) (source : γ) (events : Array Event) :
    ∃ slots added source' t, GraphData.addRandom nodes edges source ⟨d, events⟩ = .ok source' t ∧
      slots.length = nodes ∧ added.length ≤ edges ∧ d.Furnished slots added t.value := by
  obtain ⟨d₁, h₁, hd₁, hcountN, hcountE, hbuild⟩ :=
    RandomGraph.build_eq hd hlabel hweight nodes edges source events
  -- the room for nodes is less than what the list of their slots could hold
  have hfits : fitsArray nodes RandomGraph.slotWidth = true := by
    have hwidth : Store.roomLimit NodeRecord * RandomGraph.slotWidth < arrayLimit := by decide
    have hmul := Nat.mul_le_mul_right RandomGraph.slotWidth
      (Nat.le_trans (Nat.le_add_left nodes d.nodeCount) hnodes)
    exact decide_eq_true (Nat.lt_of_le_of_lt hmul hwidth)
  obtain ⟨noted, g₂, d₂, events₂, hloop, h₂, hd₂, hsize, hcount₂⟩ :=
    RandomGraph.addNodes_eq nodes #[] h₁ hd₁ (by omega) source events
  rw [Array.size_empty] at hloop hsize
  rw [if_pos hfits, RandomGraph.bind_of_ok hloop] at hbuild
  by_cases htwo : 2 ≤ noted.size
  · have hroom : d₂.edgeCount + edges ≤ Store.roomLimit EdgeRecord := by
      rw [hcount₂, hcountE]
      exact hedges (by omega)
    obtain ⟨added, g₃, d₃, events₃, hpairs, h₃, hlength⟩ :=
      RandomGraph.repeatBuild_addEdge_eq hrange edges (by omega) h₂ hd₂ hroom g₂ events₂
    rw [if_pos htwo, hpairs] at hbuild
    refine ⟨noted.toList, added, g₃, _, addRandom_of_build_ok hbuild, ?_, ?_, h₃⟩
    · rw [Array.length_toList]
      omega
    · simpa using hlength
  -- one node cannot be joined with another, so no edges are drawn
  · rw [if_neg htwo] at hbuild
    refine ⟨noted.toList, [], g₂, _, addRandom_of_build_ok hbuild, ?_, Nat.zero_le _, h₂⟩
    rw [Array.length_toList]
    omega

/-- Without room for all nodes, a graph is not filled. -/
theorem Ready.addRandom_full {d : GraphData} (hd : d.Ready)
    (hlabel : "label" ∉ d.nodeAttributes.names) (hweight : "weight" ∉ d.edgeAttributes.names)
    {nodes : Nat} (hfull : Store.roomLimit NodeRecord < d.nodeCount + nodes) (edges : Nat) (source : γ)
    (events : Array Event) :
    ∃ f t, GraphData.addRandom nodes edges source ⟨d, events⟩ = .error (.fault f) t := by
  obtain ⟨d₁, h₁, hd₁, hcountN, -, hbuild⟩ :=
    RandomGraph.build_eq hd hlabel hweight nodes edges source events
  by_cases hfits : fitsArray nodes RandomGraph.slotWidth = true
  · obtain ⟨f, t, hloop⟩ :=
      RandomGraph.addNodes_full nodes #[] h₁ hd₁ (by omega) source events
    rw [Array.size_empty] at hloop
    rw [if_pos hfits, RandomGraph.bind_of_error hloop] at hbuild
    exact ⟨f, t, addRandom_of_build_error hbuild⟩
  · rw [if_neg hfits] at hbuild
    exact ⟨_, _, addRandom_of_build_error hbuild⟩

/-- A random source that gives the word zero and the middle one in turn. -/
structure Pendulum where
  up : Bool

instance : RandomSource Pendulum where
  next32 p := (if p.up then 0x80000000 else 0, ⟨!p.up⟩)
  next64 p := (if p.up then 0x8000000000000000 else 0, ⟨!p.up⟩)

/-- The word zero makes a good draw for any range, and comes with the second word at the latest. -/
theorem Pendulum.inRange : Sampler.InRange Pendulum := by
  refine Draw.inRange_of_ends fun n p _ => ?_
  generalize hdraw : (do return Draw.reduce 64 n (← Draw.word64).toNat : Draw Pendulum (Bool × Nat)) = draw
  have hzero : draw ⟨false⟩ = ((true, 0), ⟨true⟩) := by
    rw [← hdraw]
    show (Draw.reduce 64 n 0, _) = _
    simp [Draw.reduce]
  obtain ⟨up⟩ := p
  -- a zero is always good, and it comes at the next draw at the latest
  cases up with
  | false => exact .good hzero
  | true =>
    rcases hdrawn : draw ⟨true⟩ with ⟨⟨good, a⟩, next⟩
    have hnext : next = ⟨false⟩ := by
      rw [← hdraw] at hdrawn
      exact (congrArg Prod.snd hdrawn).symm
    subst hnext
    cases good with
    | true => exact .good hdrawn
    | false => exact .again hdrawn (.good hzero)

/-- Two nodes with an edge, of which the first node is gone again. -/
def halfEmptied : List Call :=
  [.addNode default, .addNode default, .addEdge 0 1 default default, .removeNode 0]

end GraphData

end LiveGraph
