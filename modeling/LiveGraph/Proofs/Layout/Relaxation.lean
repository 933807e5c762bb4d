import LiveGraph.Layout
import LiveGraph.Proofs.Graph.Bookkeeping
import LiveGraph.Proofs.Graph.Placement
import LiveGraph.Proofs.Graph.Removal

/-!
# Relaxation only moves nodes

A relaxation computes forces and then moves nodes, one after the other. Whatever the forces come out to
be, it cannot fail, and it is the same as a list of moves: a placement of those nodes on which the force
is not negligible. All else about the graph stays as it was, down to the bytes of its records.
-/

namespace LiveGraph

/-! ## Placing a list of nodes -/

/-- Nodes are placed one after the other; the last position of a node counts. -/
def Placement.ofList : List (Nat × Point) → Placement
  | [] => fun _ => none
  | (slot, pos) :: rest => (Placement.single slot pos).andThen (ofList rest)

/-- Each of some nodes is placed where `f` wants it. -/
theorem Placement.ofList_filterMap (f : Nat → Option Point) (xs : List Nat) (n : Nat) :
    ofList (xs.filterMap fun x => (f x).map (x, ·)) n = if n ∈ xs then f n else none := by
  induction xs with
  | nil => rfl
  | cons x xs ih =>
    cases hx : f x with
    | none =>
      rw [List.filterMap_cons_none (by rw [hx]; rfl), ih]
      by_cases hn : n = x
      · subst hn
        simp [hx]
      · simp [hn]
    | some pos =>
      rw [List.filterMap_cons_some (by rw [hx]; rfl), ofList, andThen, ih, single]
      by_cases hn : n = x
      · subst hn
        split <;> simp [hx]
      · simp [hn]

/-- The calls that move nodes one after the other. -/
def GraphData.moveCalls (targets : List (Nat × Point)) : List GraphData.Call :=
  targets.map fun t => .moveNode t.1 t.2

namespace Layout

/-! ## A relaxation as a list of moves -/

/-- Where a force moves a node, unless the force is negligible. -/
def target? (params : LayoutParams) (b : Body) (f : Point) : Option Point :=
  if f.norm.le .epsilon then none
  else some (b.pos + f.scale (f.norm.min params.maxStep / f.norm))

/-- The moves that the forces ask for. -/
def targets (params : LayoutParams) (force : Forces) (bs : List Body) : List (Nat × Point) :=
  bs.filterMap fun b => (target? params b (force.getD b.slot .zero)).map (b.slot, ·)

/-- One node is displaced, and the distance added to the sum. -/
def tally (params : LayoutParams) (force : Forces) (total : Single) (b : Body) : GraphEdit Single := do
  match ← displace params force b with
  | some distance => return total + distance
  | none => return total

theorem tally_of_none {params : LayoutParams} {force : Forces} {b : Body}
    (h : target? params b (force.getD b.slot .zero) = none) (total : Single)
    (t : Tracked GraphData) : tally params force total b t = .ok total t := by
  unfold target? at h
  split at h
  · next hle =>
    have hdisplace : displace params force b t = .ok none t := by
      dsimp only [displace]
      rw [if_pos hle]
      rfl
    exact Edit.bind_of_ok hdisplace
  · cases h

/-- A body with a target is moved there. -/
theorem tally_of_some {params : LayoutParams} {force : Forces} {b : Body} {pos : Point}
    (h : target? params b (force.getD b.slot .zero) = some pos) (total : Single)
    {t t' : Tracked GraphData} (hmove : GraphData.moveNode b.slot pos t = .ok () t') :
    ∃ total', tally params force total b t = .ok total' t' := by
  unfold target? at h
  split at h
  · cases h
  · next hle =>
    cases h
    have hdisplace : ∃ distance, displace params force b t = .ok (some distance) t' := by
      dsimp only [displace]
      rw [if_neg hle]
      exact ⟨_, Edit.bind_of_ok hmove⟩
    obtain ⟨distance, hdisplace⟩ := hdisplace
    exact ⟨total + distance, Edit.bind_of_ok hdisplace⟩

/-- Nodes of a graph are displaced without failure, as if they were moved one by one. -/
theorem foldlM_tally {d : GraphData} (h : d.Consistent) (params : LayoutParams) (force : Forces)
    {bs : List Body} (hbs : ∀ b ∈ bs, d.nodes.isLive b.slot = true) (total : Single)
    (events : Array Event) :
    ∃ total' d', bs.foldlM (tally params force) total ⟨d, events⟩ = .ok total' ⟨d', events⟩ ∧
      GraphData.resume ⟨d, events⟩ (GraphData.moveCalls (targets params force bs)) = ⟨d', events⟩ ∧
      d.Placed (.ofList (targets params force bs)) d' := by
  induction bs generalizing d total with
  | nil => exact ⟨total, d, rfl, rfl, h.placed_nothing⟩
  | cons b bs ih =>
    have hb := hbs b List.mem_cons_self
    have hrest := fun b' hb' => hbs b' (List.mem_cons_of_mem b hb')
    rw [List.foldlM_cons]
    cases htarget : target? params b (force.getD b.slot .zero) with
    -- without a target the body stays, and has no move in the list
    | none =>
      obtain ⟨total', d', hfold, hresume, hplaced⟩ := ih h hrest total
      have hnone : targets params force (b :: bs) = targets params force bs :=
        List.filterMap_cons_none (by rw [htarget]; rfl)
      rw [hnone, Edit.bind_of_ok (tally_of_none htarget total _)]
      exact ⟨total', d', hfold, hresume, hplaced⟩
    | some pos =>
      obtain ⟨d₁, hmove, hplaced₁⟩ := h.placed_moveNode hb pos events
      obtain ⟨total₁, htally⟩ := tally_of_some htarget total hmove
      -- a move makes no node dead
      have hlive₁ : ∀ b' ∈ bs, d₁.nodes.isLive b'.slot = true :=
        fun b' hb' => (hplaced₁.nodes.live _).trans (hrest b' hb')
      obtain ⟨total', d', hfold, hresume, hplaced⟩ :=
        ih (hplaced₁.consistent h) hlive₁ total₁
      have hsome : targets params force (b :: bs) = (b.slot, pos) :: targets params force bs :=
        List.filterMap_cons_some (by rw [htarget]; rfl)
      rw [hsome, Edit.bind_of_ok htally]
      refine ⟨total', d', hfold, ?_, hplaced₁.andThen hplaced⟩
      rw [GraphData.moveCalls, List.map_cons, GraphData.resume_cons, GraphData.Call.edit,
        Edit.after_of_ok hmove]
      exact hresume

/-- Where a relaxation moves the nodes. -/
def destination? (params : LayoutParams) (d : GraphData) : Placement := fun n =>
  (position? d n).bind fun pos => target? params ⟨n, pos⟩ ((forces params d).getD n .zero)

/-- The moves that a relaxation makes. -/
def moves (params : LayoutParams) (d : GraphData) : List GraphData.Call :=
  GraphData.moveCalls (targets params (forces params d) (bodies d))

/-- A live node has a position. -/
theorem position?_of_live {d : GraphData} (h : d.Consistent) {n : Nat}
    (hlive : d.nodes.isLive n = true) : position? d n = some (d.nodes.recordAt n).pos := by
  rw [position?, if_pos hlive, h.nodes.record_eq (h.node_lt hlive)]
  rfl

theorem bodies_eq {d : GraphData} (h : d.Consistent) :
    bodies d = ((List.range d.nodes.len).filter d.nodes.isLive).map
      fun x => ⟨x, (d.nodes.recordAt x).pos⟩ := by
  rw [bodies, h.nodes.live_eq_map, List.map_map]
  rfl

/-- The moves of a relaxation bring every node to its destination. -/
theorem ofList_targets {d : GraphData} (h : d.Consistent) (params : LayoutParams) :
    Placement.ofList (targets params (forces params d) (bodies d)) = destination? params d := by
  funext n
  rw [targets, bodies_eq h, List.filterMap_map]
  refine (Placement.ofList_filterMap (fun x => target? params ⟨x, (d.nodes.recordAt x).pos⟩
    ((forces params d).getD x .zero)) _ n).trans ?_
  unfold destination?
  by_cases hlive : d.nodes.isLive n = true
  · have hlen : n < d.nodes.len := ((h.nodes.isLive_iff n).1 hlive).1
    rw [if_pos (List.mem_filter.2 ⟨List.mem_range.2 hlen, hlive⟩), position?_of_live h hlive]
    rfl
  · rw [if_neg fun hmem => hlive (List.mem_filter.1 hmem).2, position?, if_neg hlive]
    rfl

/-- A relaxation cannot fail: it places the nodes, by a list of moves. -/
theorem placed_relax {d : GraphData} (h : d.Consistent) (params : LayoutParams)
    (events : Array Event) :
    ∃ total d', relax params ⟨d, events⟩ = .ok total ⟨d', events⟩ ∧
      GraphData.resume ⟨d, events⟩ (moves params d) = ⟨d', events⟩ ∧
      d.Placed (destination? params d) d' := by
  have hbodies : ∀ b ∈ bodies d, d.nodes.isLive b.slot = true := by
    intro b hb
    rw [bodies_eq h] at hb
    obtain ⟨x, hx, rfl⟩ := List.mem_map.1 hb
    exact (List.mem_filter.1 hx).2
  have hfold := foldlM_tally h params (forces params d) hbodies .zero events
  rw [ofList_targets h] at hfold
  exact hfold

end Layout

/-! ## Bytes -/

namespace Store

variable {ρ τ : Type} [Record ρ]

/-- The stores have the same bytes, apart from those that may be written: `writable x i` is about byte
`i` of slot `x`. -/
def KeepsBytes (s : Store ρ τ) (writable : Nat → Nat → Prop) (s' : Store ρ τ) : Prop :=
  ∀ x, x < s.capacity → ∃ bytes bytes', s.slotBytes x = .ok bytes ∧ s'.slotBytes x = .ok bytes' ∧
    bytes'.size = bytes.size ∧ ∀ i, ¬ writable x i → bytes'[i]? = bytes[i]?

/-- If records agree in the bytes that may not be written, so do the stores. -/
theorem Overwritten.keepsBytes {s s' : Store ρ τ} {P : Nat → Prop} (h : Overwritten s P s')
    (hs : s.WellFormed) {writable : Nat → Nat → Prop}
    (hrecord : ∀ x, x < s.capacity → ∀ i, ¬ writable x i →
      (Record.encode (s'.recordAt x))[i]? = (Record.encode (s.recordAt x))[i]?) :
    s.KeepsBytes writable s' := by
  intro x hx
  have hx' : x < s'.capacity := by
    rw [h.capacity]
    exact hx
  refine ⟨_, _, hs.slotBytes_eq_encode hx, h.wellFormed.slotBytes_eq_encode hx', ?_, ?_⟩
  · simp
  · intro i hi
    rw [List.getElem?_toArray, List.getElem?_toArray]
    exact hrecord x hx i hi

end Store

/-- A byte of two pieces is a byte of the first or of the second. -/
theorem getElem?_append_congr {a a' b b' : List UInt8} {i : Nat} (hlen : a'.length = a.length)
    (hleft : i < a.length → a'[i]? = a[i]?)
    (hright : a.length ≤ i → b'[i - a.length]? = b[i - a.length]?) :
    (a' ++ b')[i]? = (a ++ b)[i]? := by
  rw [List.getElem?_append, List.getElem?_append, hlen]
  split
  · next hi => exact hleft hi
  · next hi => exact hright (Nat.le_of_not_lt hi)

/-- A node that is placed differs in the bytes of its position at most. -/
theorem NodeRecord.getElem?_encode_placed (r : NodeRecord) (pos : Option Point) (i : Nat)
    (hi : ¬ (i < 8 ∧ pos.isSome = true)) :
    (Record.encode (r.placed pos))[i]? = (Record.encode r)[i]? := by
  cases pos with
  | none => rfl
  | some p =>
    show (p.encode ++ r.radius.encode ++ r.fill.encode ++ [r.flags])[i]?
      = (r.pos.encode ++ r.radius.encode ++ r.fill.encode ++ [r.flags])[i]?
    simp only [List.append_assoc]
    refine getElem?_append_congr (by simp) (fun hlt => ?_) (fun _ => rfl)
    rw [Point.length_encode] at hlt
    exact absurd ⟨hlt, rfl⟩ hi

/-- An edge differs at most in the bytes of those ends that are placed. -/
theorem EdgeRecord.getElem?_encode_placed (r : EdgeRecord) (ends : EdgeData) (place : Placement)
    (i : Nat) (hsource : ¬ (i < 8 ∧ (place ends.source).isSome = true))
    (htarget : ¬ (8 ≤ i ∧ i < 16 ∧ (place ends.target).isSome = true)) :
    (Record.encode (r.placed ends place))[i]? = (Record.encode r)[i]? := by
  show ((r.placed ends place).source.encode ++ (r.placed ends place).target.encode ++ r.width.encode
      ++ r.color.encode ++ [r.flags])[i]?
    = (r.source.encode ++ r.target.encode ++ r.width.encode ++ r.color.encode ++ [r.flags])[i]?
  simp only [List.append_assoc]
  -- part by part: the source, the target, and behind them what is not touched
  refine getElem?_append_congr (by simp) (fun hlt => ?_) (fun hle => ?_)
  · rw [Point.length_encode] at hlt
    have hstays : place ends.source = none := by
      rw [← Option.not_isSome_iff_eq_none]
      exact fun hsome => hsource ⟨hlt, hsome⟩
    rw [placed, hstays]
    rfl
  · rw [Point.length_encode] at hle ⊢
    refine getElem?_append_congr (by simp) (fun hlt => ?_) (fun _ => rfl)
    rw [Point.length_encode] at hlt
    have hstays : place ends.target = none := by
      rw [← Option.not_isSome_iff_eq_none]
      exact fun hsome => htarget ⟨hle, by omega, hsome⟩
    rw [placed, hstays]
    rfl

namespace Layout

/-! ## What a relaxation leaves alone -/

/-- What a relaxation does to a graph. -/
structure Relaxed (params : LayoutParams) (d d' : GraphData) : Prop where
  /-- Apart from bytes of records, and from the notes which of them changed, the nodes are the same:
  their number, capacity, free slots, adjacent edges and generations. -/
  nodes : { d'.nodes with
    blocks := d.nodes.blocks, changes := d.nodes.changes, dirtyBlocks := d.nodes.dirtyBlocks } = d.nodes
  /-- So are the edges, with their end nodes. -/
  edges : { d'.edges with
    blocks := d.edges.blocks, changes := d.edges.changes, dirtyBlocks := d.edges.dirtyBlocks } = d.edges
  liveNode : ∀ n, d'.nodes.isLive n = d.nodes.isLive n
  liveEdge : ∀ e, d'.edges.isLive e = d.edges.isLive e
  nodeAttributes : d'.nodeAttributes = d.nodeAttributes
  edgeAttributes : d'.edgeAttributes = d.edgeAttributes
  /-- The nodes are at their destinations. -/
  position : ∀ n, position? d' n = (destination? params d n).or (position? d n)
  /-- Of the nodes, only positions are written, and only those of live nodes. -/
  nodeBytes : d.nodes.KeepsBytes (fun n i =>
    i < 8 ∧ d.nodes.isLive n = true ∧ (destination? params d n).isSome = true) d'.nodes
  /-- Of the edges, only those ends of live edges are written that are at a node that was moved. -/
  edgeBytes : d.edges.KeepsBytes (fun e i => d.edges.isLive e = true ∧
    (i < 8 ∧ (destination? params d (d.edges.dataAt e).source).isSome = true ∨
      8 ≤ i ∧ i < 16 ∧ (destination? params d (d.edges.dataAt e).target).isSome = true)) d'.edges
  /-- No edge is left out for want of a node at one of its ends. -/
  known : ∀ e r, (e, r) ∈ d.edges.live → ∃ ends p q, d.edges.data e = .ok ends ∧
    position? d ends.source = some p ∧ position? d ends.target = some q
  attached : d.Attached → d'.Attached

theorem isLive_of_destination {params : LayoutParams} {d : GraphData} {n : Nat}
    (h : (destination? params d n).isSome = true) : d.nodes.isLive n = true := by
  unfold destination? position? at h
  split at h
  · assumption
  · cases h

/-- After placing, a node is at its destination, or where it was. -/
theorem position?_of_placed {d d' : GraphData} (h : d.Consistent) {params : LayoutParams}
    (hplaced : d.Placed (destination? params d) d') (n : Nat) :
    position? d' n = (destination? params d n).or (position? d n) := by
  by_cases hlive : d.nodes.isLive n = true
  · have hlive' : d'.nodes.isLive n = true := (hplaced.nodes.live n).trans hlive
    rw [position?_of_live h hlive, position?_of_live (hplaced.consistent h) hlive',
      hplaced.node n (h.node_lt hlive)]
    cases destination? params d n <;> rfl
  · have hdead : position? d n = none := by rw [position?, if_neg hlive]
    have hdead' : position? d' n = none := by rw [position?, hplaced.nodes.live, if_neg hlive]
    rw [destination?, hdead, hdead']
    rfl

/-- In a consistent graph the positions of both ends of an edge are known. -/
theorem position?_ends {d : GraphData} (h : d.Consistent) {e : Nat}
    (he : d.edges.isLive e = true) : ∃ ends p q, d.edges.data e = .ok ends ∧
      position? d ends.source = some p ∧ position? d ends.target = some q := by
  have hsource := h.linked.node_of_meets e he (d.edges.dataAt e).source (.inl rfl)
  have htarget := h.linked.node_of_meets e he (d.edges.dataAt e).target (.inr rfl)
  exact ⟨_, _, _, h.edges.data_eq (h.edges.lt_of_isLive he), position?_of_live h hsource,
    position?_of_live h htarget⟩

theorem relaxed_of_placed {d d' : GraphData} (h : d.Consistent) {params : LayoutParams}
    (hplaced : d.Placed (destination? params d) d') : Relaxed params d d' where
  nodes := hplaced.nodes.frame
  edges := hplaced.edges.frame
  liveNode := hplaced.nodes.live
  liveEdge := hplaced.edges.live
  nodeAttributes := hplaced.nodeAttributes
  edgeAttributes := hplaced.edgeAttributes
  position := position?_of_placed h hplaced
  nodeBytes := by
    refine hplaced.nodes.keepsBytes h.nodes fun n hn i hi => ?_
    rw [hplaced.node n hn]
    refine NodeRecord.getElem?_encode_placed _ _ i fun hwritten => ?_
    exact hi ⟨hwritten.1, isLive_of_destination hwritten.2, hwritten.2⟩
  edgeBytes := by
    refine hplaced.edges.keepsBytes h.edges fun e he i hi => ?_
    by_cases hlive : d.edges.isLive e = true
    · rw [hplaced.edge e hlive]
      exact EdgeRecord.getElem?_encode_placed _ _ _ i (fun hsource => hi ⟨hlive, .inl hsource⟩)
        fun htarget => hi ⟨hlive, .inr htarget⟩
    · rw [hplaced.edges.others e he fun hdrags => hlive hdrags.1]
  known e r he := position?_ends h ((h.edges.mem_live e r).1 he).1
  attached := hplaced.attached h

/-- After any calls on a new graph, a relaxation succeeds, publishes nothing, and only moves nodes: what
it does could be done by some moves as well. -/
theorem relax_only_moves {config : GraphConfig} {d₀ : GraphData}
    (hnew : GraphData.new config = .ok d₀) (calls : List GraphData.Call) (params : LayoutParams) :
    ∃ total d', relax params (GraphData.run d₀ calls) = .ok total ⟨d', (GraphData.run d₀ calls).events⟩ ∧
      Relaxed params (GraphData.run d₀ calls).value d' ∧
      ∃ targets, GraphData.run d₀ (calls ++ GraphData.moveCalls targets)
        = ⟨d', (GraphData.run d₀ calls).events⟩ := by
  have h := GraphData.consistent_run (GraphData.consistent_new hnew) calls
  obtain ⟨total, d', hrelax, hresume, hplaced⟩ := placed_relax h params (GraphData.run d₀ calls).events
  have hmoves := GraphData.resume_append ⟨d₀, #[]⟩ calls (moves params (GraphData.run d₀ calls).value)
  exact ⟨total, d', hrelax, relaxed_of_placed h hplaced, _, hmoves.trans hresume⟩

/-- Two nodes one apart, an edge between them, a loop, and a third node that was removed. -/
def dumbbell : List GraphData.Call :=
  [.addNode { (default : NodeRecord) with pos := ⟨⟨0x3f800000⟩, .zero⟩ }, .addNode default,
   .addNode default, .addEdge 0 1 default default, .addEdge 1 1 default default, .removeNode 2, .flush]

/-- In the dumbbell two nodes may move, and both edges with them. -/
theorem relax_only_moves_dumbbell : ∃ d₀, GraphData.new {} = .ok d₀ ∧
    (bodies (GraphData.run d₀ dumbbell).value).map (·.slot) = [0, 1] ∧
    (GraphData.run d₀ dumbbell).value.edges.isLive 0 = true ∧
    (GraphData.run d₀ dumbbell).value.edges.isLive 1 = true ∧
    ∃ total d', relax {} (GraphData.run d₀ dumbbell)
        = .ok total ⟨d', (GraphData.run d₀ dumbbell).events⟩ ∧
      Relaxed {} (GraphData.run d₀ dumbbell).value d' := by
  obtain ⟨d₀, hnew⟩ : ∃ d₀, GraphData.new {} = .ok d₀ := ⟨_, rfl⟩
  have hlive : (bodies (GraphData.run d₀ dumbbell).value).map (·.slot) = [0, 1] ∧
      (GraphData.run d₀ dumbbell).value.edges.isLive 0 = true ∧
      (GraphData.run d₀ dumbbell).value.edges.isLive 1 = true := by
    cases hnew
    decide +kernel
  obtain ⟨total, d', hrelax, hrelaxed, -⟩ := relax_only_moves hnew dumbbell {}
  exact ⟨d₀, hnew, hlive.1, hlive.2.1, hlive.2.2, total, d', hrelax, hrelaxed⟩

end Layout

end LiveGraph
