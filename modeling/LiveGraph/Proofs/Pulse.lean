import LiveGraph.Proofs.Graph.Tenancy
import LiveGraph.Proofs.Stage

/-!
# Pulses keep to their node

A pulse knows its node by slot and generation, and looks for it before everything it does. As long as
the node is there, the turn of the pulse in a tick draws it anew: its radius, its highlight and the mark
of the change are all that is written. Once the node is removed the pulse finds it no more, even if the
slot holds another node: it does nothing, and its next turn is the last.
-/

namespace LiveGraph

open GraphData (Call resume vacated fillings)

variable {ε : Type}

/-! ## Drawing a node anew -/

namespace NodeRecord

/-- The record with another radius, highlighted or not. -/
def drawn (r : NodeRecord) (radius : Single) (on : Bool) : NodeRecord :=
  Record.setHighlighted { r with radius } on

/-- What is drawn last is seen. -/
theorem drawn_drawn (r : NodeRecord) (radius radius' : Single) (on on' : Bool) :
    (r.drawn radius on).drawn radius' on' = r.drawn radius' on' := by
  have hflags : ∀ f : BitVec 8,
      (if on' then (if on then ⟨f⟩ ||| highlightedFlag else ⟨f⟩ &&& ~~~highlightedFlag) ||| highlightedFlag
        else (if on then ⟨f⟩ ||| highlightedFlag else ⟨f⟩ &&& ~~~highlightedFlag) &&& ~~~highlightedFlag)
      = if on' then (⟨f⟩ ||| highlightedFlag : UInt8) else ⟨f⟩ &&& ~~~highlightedFlag := by
    cases on
    all_goals
      cases on'
      all_goals decide
  exact congrArg (fun f => ({ r with radius := radius', flags := f } : NodeRecord))
    (hflags r.flags.toBitVec)

/-- A record that is not marked as deleted has no mark to clear. -/
theorem clearDeleted_eq_self {r : NodeRecord} (h : Record.isDeleted r = false) :
    Record.clearDeleted r = r := by
  have hflags : ∀ f : BitVec 8, ((⟨f⟩ : UInt8) &&& deletedFlag != 0) = false →
      (⟨f⟩ : UInt8) &&& ~~~deletedFlag = ⟨f⟩ := by decide
  exact congrArg (fun f => ({ r with flags := f } : NodeRecord)) (hflags r.flags.toBitVec h)

theorem isDeleted_drawn (r : NodeRecord) (radius : Single) (on : Bool) :
    Record.isDeleted (r.drawn radius on) = Record.isDeleted r :=
  Record.isDeleted_setHighlighted _ on

end NodeRecord

namespace GraphData

/-- The node in a slot has another radius and may have changed its highlight, its slot is marked as
changed, and everything else is the same. -/
structure Redrawn (slot : Nat) (t t' : Tracked GraphData) : Prop where
  events : t'.events = t.events
  edges : t'.value.edges = t.value.edges
  nodeAttributes : t'.value.nodeAttributes = t.value.nodeAttributes
  edgeAttributes : t'.value.edgeAttributes = t.value.edgeAttributes
  nodes : t.value.nodes.Marked slot t'.value.nodes
  others : ∀ x, x < t.value.nodes.capacity → x ≠ slot →
    t'.value.nodes.record x = t.value.nodes.record x
  own : ∃ r radius on, t.value.nodes.record slot = .ok r ∧
    t'.value.nodes.record slot = .ok (r.drawn radius on)

/-- Writing a radius and a highlight draws a node anew. -/
theorem Consistent.redrawn {d : GraphData} (h : d.Consistent) {slot : Nat}
    (hlive : d.nodes.isLive slot = true) {radius : Single} {on : Bool} {nodes : NodeStore}
    (hs : d.nodes.Rewritten slot ((d.nodes.recordAt slot).drawn radius on) nodes)
    (events : Array Event) : Redrawn slot ⟨d, events⟩ ⟨{ d with nodes }, events⟩ := by
  have hrecord : ∀ x, x < d.nodes.capacity → nodes.record x = .ok (nodes.recordAt x) := by
    intro x hx
    exact hs.wellFormed.record_eq (hs.marked.capacity ▸ hx)
  refine ⟨rfl, rfl, rfl, rfl, hs.marked, fun x hx hne => ?_, ?_⟩
  · show nodes.record x = d.nodes.record x
    rw [hrecord x hx, h.nodes.record_eq hx, hs.others x hx hne]
  · refine ⟨_, radius, on, h.nodes.record_eq (h.node_lt hlive), ?_⟩
    show nodes.record slot = _
    rw [hrecord slot (h.node_lt hlive), hs.record slot hlive, if_pos rfl]

/-- Drawing a node twice is drawing it. -/
theorem Redrawn.trans {slot : Nat} {t t' t'' : Tracked GraphData} (h : t.value.nodes.WellFormed)
    (hslot : slot < t.value.nodes.capacity) (h₁ : Redrawn slot t t') (h₂ : Redrawn slot t' t'') :
    Redrawn slot t t'' := by
  refine ⟨h₂.events.trans h₁.events, h₂.edges.trans h₁.edges,
    h₂.nodeAttributes.trans h₁.nodeAttributes, h₂.edgeAttributes.trans h₁.edgeAttributes,
    h₁.nodes.trans h hslot h₂.nodes, fun x hx hne => ?_, ?_⟩
  · exact (h₂.others x (h₁.nodes.capacity ▸ hx) hne).trans (h₁.others x hx hne)
  · obtain ⟨r, radius, on, hr, hr'⟩ := h₁.own
    obtain ⟨r', radius', on', hr'', hend⟩ := h₂.own
    rw [hr'] at hr''
    cases hr''
    rw [NodeRecord.drawn_drawn] at hend
    exact ⟨r, radius', on', hr, hend⟩

end GraphData

/-! ## What a pulse does -/

namespace Pulse

variable {p : Pulse} {t : Tracked GraphData}

/-- A pulse finds its node exactly if the slot is live and was not filled again since. -/
theorem sameNode_iff (p : Pulse) {d : GraphData} (h : d.Consistent) :
    p.sameNode d = true ↔ d.nodes.isLive p.slot = true ∧
      (d.nodes.dataAt p.slot).generation = p.generation := by
  unfold sameNode
  rw [Bool.and_eq_true]
  apply and_congr_right
  intro hlive
  rw [h.nodes.data_eq (h.node_lt hlive)]
  exact beq_iff_eq

/-- A pulse starts at a live node, and remembers how often its slot was filled. -/
theorem of?_eq_some {d : GraphData} (h : d.Consistent) {slot : Nat} {duration : Double}
    (hp : of? d slot duration = some p) : d.nodes.isLive slot = true ∧ p.slot = slot ∧
      p.generation = (d.nodes.dataAt slot).generation := by
  unfold of? at hp
  split at hp
  · next hlive =>
    rw [h.nodes.data_eq (h.node_lt hlive), h.nodes.record_eq (h.node_lt hlive)] at hp
    cases hp
    exact ⟨hlive, rfl, rfl⟩
  · cases hp

/-- A pulse that finds its node draws it anew, and still finds it then. -/
theorem progress_of_sameNode (h : t.value.Consistent) (hsame : p.sameNode t.value = true)
    (time : Double) :
    ∃ t', choreography.progress p t time = (true, p, t') ∧ GraphData.Redrawn p.slot t t' ∧
      t'.value.Consistent ∧ p.sameNode t'.value = true := by
  obtain ⟨d, events⟩ := t
  obtain ⟨hlive, hgeneration⟩ := (p.sameNode_iff h).1 hsame
  obtain ⟨nodes, heq, hs⟩ := h.updateNode_of_live hlive
    (fun r => r.drawn (p.base * p.factor time) true) events
  have h' := h.sameNodes hs.toSameElements
  have hprogress : choreography.progress p ⟨d, events⟩ time = (true, p, ⟨{ d with nodes }, events⟩) := by
    have hattempt : p.attempt (p.display time) ⟨d, events⟩ = (true, ⟨{ d with nodes }, events⟩) := by
      rw [attempt, if_pos hsame]
      have hdisplay : p.display time ⟨d, events⟩ = .ok () ⟨{ d with nodes }, events⟩ := heq
      rw [hdisplay]
    show ((p.attempt (p.display time) ⟨d, events⟩).1, p, (p.attempt (p.display time) ⟨d, events⟩).2) = _
    rw [hattempt]
  -- an update clears the mark of deletion, which is not set here
  have hdeleted : Record.isDeleted ((d.nodes.recordAt p.slot).drawn (p.base * p.factor time) true)
      = false := by
    rw [NodeRecord.isDeleted_drawn]
    exact h.isDeleted_node hlive
  rw [NodeRecord.clearDeleted_eq_self hdeleted] at hs
  refine ⟨_, hprogress, h.redrawn hlive hs events, h', (p.sameNode_iff h').2 ⟨?_, ?_⟩⟩
  · exact (hs.live p.slot).trans hlive
  · exact (congrArg NodeData.generation (hs.data p.slot)).trans hgeneration

/-- The end of a pulse draws its node and nothing else. -/
theorem finish_of_sameNode (h : t.value.Consistent) (hsame : p.sameNode t.value = true) :
    GraphData.Redrawn p.slot t (choreography.finish p t) := by
  obtain ⟨d, events⟩ := t
  obtain ⟨hlive, -⟩ := (p.sameNode_iff h).1 hsame
  obtain ⟨nodes, heq, hs⟩ := h.highlightNode_of_live hlive false events
  have hfinish : choreography.finish p ⟨d, events⟩ = ⟨{ d with nodes }, events⟩ := by
    show (p.attempt (GraphData.setHighlighted .node p.slot false) ⟨d, events⟩).2 = _
    rw [attempt_snd, if_pos hsame, Edit.after_of_ok heq]
  rw [hfinish]
  exact h.redrawn hlive hs events

/-- A pulse that does not find its node does nothing and does not go on. -/
theorem progress_of_gone (hgone : p.sameNode t.value = false) (time : Double) :
    choreography.progress p t time = (false, p, t) := by
  have hattempt : p.attempt (p.display time) t = (false, t) := by
    rw [attempt, hgone]
    rfl
  show ((p.attempt (p.display time) t).1, p, (p.attempt (p.display time) t).2) = _
  rw [hattempt]

/-- The end of a pulse whose node is gone does nothing. -/
theorem finish_of_gone (hgone : p.sameNode t.value = false) : choreography.finish p t = t := by
  show (p.attempt (GraphData.setHighlighted .node p.slot false) t).2 = t
  rw [attempt_snd, hgone]
  rfl

/-- A pulse finds its node exactly as long as it was not removed, if the generations have not gone once
around. -/
theorem sameNode_resume (h : t.value.Consistent) {slot : Nat} {duration : Double}
    (hp : of? t.value slot duration = some p) {calls : List Call}
    (hfew : fillings slot t calls < UInt64.size) :
    p.sameNode (resume t calls).value = !vacated slot t calls := by
  obtain ⟨hlive, rfl, hgeneration⟩ := of?_eq_some h hp
  have hiff := p.sameNode_iff (h.resume calls)
  rw [h.generation_resume, ← hgeneration] at hiff
  cases hleft : vacated p.slot t calls with
  | false =>
    obtain ⟨hstill, hnone⟩ := h.stays hlive hleft
    apply hiff.2
    rw [hnone]
    exact ⟨hstill, UInt64.add_zero _⟩
  -- filled again fewer than 2 ^ 64 times, the slot has another count
  | true =>
    rw [Bool.not_true, ← Bool.not_eq_true, hiff]
    rintro ⟨hagain, hsame⟩
    have hpos := h.filled_of_vacated hlive hleft hagain
    have hwrapped := congrArg UInt64.toNat (UInt64.add_eq_left.1 hsame)
    rw [UInt64.toNat_ofNat_of_lt' hfew] at hwrapped
    exact absurd hwrapped (Nat.ne_of_gt hpos)

end Pulse

/-! ## Its turns -/

section

variable (m : Mutators ε) (dt : Double) {p : Pulse} {a : Animation (Pulse ⊕ ε)}
  {t : Tracked GraphData}

/-- The animation can do nothing to the graph, and is dropped in its turn. -/
structure Inert (m : Mutators ε) (dt : Double) (a : Animation (Pulse ⊕ ε)) (t : Tracked GraphData) :
    Prop where
  progress : ∀ time, m.ensemble.progress a.effect t time = (false, a.effect, t)
  finish : m.ensemble.finish a.effect t = t
  turn : AnimationSet.advance m.ensemble dt [a] t = ([], t)

/-- A pulse whose node is gone does nothing, and leaves at its next turn. -/
theorem Pulse.inert_of_gone (ha : a.effect = .inl p) (hgone : p.sameNode t.value = false) :
    Inert m dt a t := by
  have hprogress : ∀ time, m.ensemble.progress a.effect t time = (false, a.effect, t) := by
    intro time
    rw [ha]
    exact Choreography.progress_inl (p.progress_of_gone hgone time) m.choreography
  have hfinish : m.ensemble.finish a.effect t = t := by
    rw [ha]
    exact p.finish_of_gone hgone
  refine ⟨hprogress, hfinish, ?_⟩
  rw [AnimationSet.advance_of_progress m.ensemble dt (hprogress _) [], Bool.not_false, Bool.or_true,
    if_pos rfl, hfinish]
  rfl

/-- In a turn the pulse makes progress, and may end then. -/
theorem Pulse.redrawn_of_sameNode (h : t.value.Consistent) (ha : a.effect = .inl p)
    (hsame : p.sameNode t.value = true) :
    GraphData.Redrawn p.slot t (AnimationSet.advance m.ensemble dt [a] t).2 := by
  obtain ⟨t', hpulse, hredrawn, h', hstill⟩ :=
    p.progress_of_sameNode h hsame ((dt + a.elapsed).min a.duration)
  have hprogress : m.ensemble.progress a.effect t ((dt + a.elapsed).min a.duration)
      = (true, .inl p, t') := by
    rw [ha]
    exact Choreography.progress_inl hpulse m.choreography
  rw [AnimationSet.advance_of_progress m.ensemble dt hprogress []]
  split
  · have hslot := h.node_lt ((p.sameNode_iff h).1 hsame).1
    exact hredrawn.trans h.nodes hslot (p.finish_of_sameNode h' hstill)
  · exact hredrawn

end

/-! ## Plays -/

namespace Stage

/-- No running animation has an id that is still to be given. -/
def Numbered (s : Stage ε) : Prop := ∀ a ∈ s.effects.running, a.id < s.effects.nextId

/-- The id was given, and while the animation runs it is the pulse. -/
structure Billed (id : Nat) (p : Pulse) (s : Stage ε) : Prop where
  given : id < s.effects.nextId
  effect : ∀ a ∈ s.effects.running, a.id = id → a.effect = .inl p

variable {m : Mutators ε} {s : Stage ε}

/-- What a tick leaves of an animation has its id, and is the same pulse if it was one. -/
theorem mem_running_tick {dt : Double} {b : Animation (Pulse ⊕ ε)}
    (hb : b ∈ (s.step m (.tick dt)).effects.running) :
    ∃ a ∈ s.effects.running, b.id = a.id ∧ ∀ p : Pulse, a.effect = .inl p → b.effect = .inl p := by
  obtain ⟨earlier, a, rest, hsplit, hturn⟩ := AnimationSet.mem_advance m.ensemble dt hb
  obtain ⟨hid, time, heffect⟩ := AnimationSet.mem_advance_singleton m.ensemble dt hturn
  refine ⟨a, ?_, hid, fun p hp => ?_⟩
  · rw [hsplit]
    exact List.mem_append_right _ List.mem_cons_self
  · rw [heffect, hp]
    rfl

theorem mem_running_add {duration : Double} {e : Pulse ⊕ ε} {b : Animation (Pulse ⊕ ε)}
    (hb : b ∈ (s.effects.add duration e).2.running) :
    b ∈ s.effects.running ∨ b.id = s.effects.nextId ∧ b.effect = e := by
  rcases List.mem_append.1 hb with hold | hnew
  · exact .inl hold
  · rw [List.mem_singleton.1 hnew]
    exact .inr ⟨rfl, rfl⟩

/-- What runs later has run before, under its id and as the pulse that it was, or has got an id
since. -/
structure Recast (s s' : Stage ε) : Prop where
  nextId : s.effects.nextId ≤ s'.effects.nextId
  running : ∀ b ∈ s'.effects.running,
    (∃ a ∈ s.effects.running, b.id = a.id ∧ ∀ p : Pulse, a.effect = .inl p → b.effect = .inl p) ∨
    s.effects.nextId ≤ b.id ∧ b.id < s'.effects.nextId

theorem recast_of_subset {s' : Stage ε} (hnext : s'.effects.nextId = s.effects.nextId)
    (hsub : s'.effects.running ⊆ s.effects.running) : Recast s s' :=
  ⟨Nat.le_of_eq hnext.symm, fun b hb => .inl ⟨b, hsub hb, rfl, fun _ hp => hp⟩⟩

theorem recast_add (s : Stage ε) (duration : Double) (e : Pulse ⊕ ε) :
    Recast s { s with effects := (s.effects.add duration e).2 } := by
  refine ⟨Nat.le_succ _, fun b hb => ?_⟩
  rcases mem_running_add hb with hold | ⟨hid, -⟩
  · exact .inl ⟨b, hold, rfl, fun _ hp => hp⟩
  · rw [hid]
    exact .inr ⟨Nat.le_refl _, Nat.lt_succ_self _⟩

/-- What runs after a cue ran before with the same effect, or has the next id. -/
theorem recast_step (m : Mutators ε) (s : Stage ε) (q : Cue ε) : Recast s (s.step m q) := by
  cases q with
  | call c => exact recast_of_subset rfl (List.Subset.refl _)
  | pulse slot duration =>
    unfold Stage.step
    dsimp only
    split
    · exact recast_add s duration _
    · exact recast_of_subset rfl (List.Subset.refl _)
  | add duration e => exact recast_add s duration _
  | cancel id => exact recast_of_subset rfl (fun b hb => (List.mem_filter.1 hb).1)
  | tick dt => exact ⟨Nat.le_refl _, fun b hb => .inl (mem_running_tick hb)⟩

theorem Numbered.recast {s' : Stage ε} (h : s.Numbered) (hs : Recast s s') : s'.Numbered := by
  intro b hb
  rcases hs.running b hb with ⟨a, ha, hid, -⟩ | ⟨-, hnew⟩
  · rw [hid]
    exact Nat.lt_of_lt_of_le (h a ha) hs.nextId
  · exact hnew

/-- An id stands for the same pulse, however the play goes on. -/
theorem Billed.recast {s' : Stage ε} {id : Nat} {p : Pulse} (h : s.Billed id p) (hs : Recast s s') :
    s'.Billed id p := by
  refine ⟨Nat.lt_of_lt_of_le h.given hs.nextId, fun b hb hid => ?_⟩
  rcases hs.running b hb with ⟨a, ha, hsame, hpulse⟩ | ⟨hnew, -⟩
  · exact hpulse p (h.effect a ha (hsame.symm.trans hid))
  · exact absurd h.given (Nat.not_lt_of_le (hid ▸ hnew))

/-- What every cue keeps holds after any cues. -/
theorem play_induction {P : Stage ε → Prop} (h : P s) (hstep : ∀ s q, P s → P (s.step m q))
    (cues : List (Cue ε)) : P (s.play m cues) := by
  induction cues generalizing s with
  | nil => exact h
  | cons q cues ih => exact ih (hstep s q h)

/-- A pulse that starts gets the next id. -/
theorem Numbered.billed (h : s.Numbered) {slot : Nat} {duration : Double} {p : Pulse}
    (hp : Pulse.of? s.graph.value slot duration = some p) :
    (s.step m (.pulse slot duration)).Billed s.effects.nextId p := by
  rw [Stage.step, hp]
  refine ⟨Nat.lt_succ_self _, fun b hb hid => ?_⟩
  rcases mem_running_add hb with hold | ⟨-, heffect⟩
  · exact absurd hid (Nat.ne_of_lt (h b hold))
  · exact heffect

end Stage

/-- What the animation `id` can do in a tick, if it is the pulse of the node that was in `slot` when the
graph was `t₀`, and `calls` are those made since. -/
structure Confined (m : Mutators ε) (t₀ : Tracked GraphData) (slot id : Nat) (s : Stage ε)
    (calls : List Call) (dt : Double) : Prop where
  /-- In its turn it draws its node anew, or does nothing once the node was removed, be it by an
  animation whose turn was before in the same tick. -/
  turn : ∀ earlier a rest t, s.effects.running = earlier ++ a :: rest → a.id = id →
    t = (AnimationSet.advance m.ensemble dt earlier s.graph).2 →
      (s.step m (.tick dt)).graph = (AnimationSet.advance m.ensemble dt rest
        (AnimationSet.advance m.ensemble dt [a] t).2).2 ∧
      (vacated slot t₀ (calls ++ m.tickCalls dt earlier s.graph) = false →
        GraphData.Redrawn slot t (AnimationSet.advance m.ensemble dt [a] t).2) ∧
      (vacated slot t₀ (calls ++ m.tickCalls dt earlier s.graph) = true → Inert m dt a t)
  /-- If the node was removed before the tick, the animation is gone after it. -/
  gone : vacated slot t₀ calls = true → ∀ b ∈ (s.step m (.tick dt)).effects.running, b.id ≠ id

/-- The pulse of a node never touches another one. It starts on a stage that any cues have led to, and
any others follow, of which the last is a tick; in all that time fewer nodes come into the slot than
there are generations. -/
theorem pulse_confined {config : GraphConfig} {d₀ : GraphData} (hnew : GraphData.new config = .ok d₀)
    (m : Mutators ε) (before later : List (Cue ε)) (slot : Nat) (duration dt : Double)
    {s₀ s₁ : Stage ε} (hs₀ : s₀ = Stage.play m ⟨⟨d₀, #[]⟩, {}⟩ before)
    (hs₁ : s₁ = s₀.step m (.pulse slot duration))
    (hstarts : (Pulse.of? s₀.graph.value slot duration).isSome = true)
    (hfew : fillings slot s₀.graph (s₁.log m (later ++ [.tick dt])) < UInt64.size) :
    Confined m s₀.graph slot s₀.effects.nextId (s₁.play m later) (s₁.log m later) dt := by
  obtain ⟨p, hp⟩ := Option.isSome_iff_exists.1 hstarts
  have h₀ : s₀.graph.value.Consistent := by
    rw [hs₀, Stage.graph_play]
    exact GraphData.Consistent.resume (GraphData.consistent_new hnew) _
  have hnumbered : s₀.Numbered := by
    rw [hs₀]
    refine Stage.play_induction ?_ (fun s q hs => hs.recast (s.recast_step m q)) before
    exact fun a ha => absurd ha List.not_mem_nil
  have hbilled : (s₁.play m later).Billed s₀.effects.nextId p := by
    refine Stage.play_induction ?_ (fun s q hs => hs.recast (s.recast_step m q)) later
    rw [hs₁]
    exact hnumbered.billed hp
  have hgraph : (s₁.play m later).graph = resume s₀.graph (s₁.log m later) := by
    have hsame : s₁.graph = s₀.graph := by
      rw [hs₁, Stage.graph_step]
      rfl
    rw [Stage.graph_play, hsame]
  generalize hs : s₁.play m later = s at hbilled hgraph ⊢
  obtain ⟨-, hslot, -⟩ := Pulse.of?_eq_some h₀ hp
  -- where the pulse has its turn, it looks for its node after all the calls made until then
  have hfinds : ∀ earlier a rest, s.effects.running = earlier ++ a :: rest →
      (AnimationSet.advance m.ensemble dt earlier s.graph).2.value.Consistent ∧
      p.sameNode (AnimationSet.advance m.ensemble dt earlier s.graph).2.value
        = !vacated slot s₀.graph (s₁.log m later ++ m.tickCalls dt earlier s.graph) := by
    intro earlier a rest hsplit
    rw [m.advance_snd, hgraph, ← GraphData.resume_append, ← hgraph]
    refine ⟨h₀.resume _, Pulse.sameNode_resume h₀ hp (Nat.lt_of_le_of_lt ?_ hfew)⟩
    rw [Stage.log_append, hs, Stage.log, Stage.log, List.append_nil, Stage.calls, hsplit,
      m.tickCalls_append, ← List.append_assoc, GraphData.fillings_append (_ ++ _)]
    omega
  -- once the slot was vacated, the pulse has nothing to do in its turn
  have hturn : ∀ earlier a rest, s.effects.running = earlier ++ a :: rest →
      a.id = s₀.effects.nextId →
      vacated slot s₀.graph (s₁.log m later ++ m.tickCalls dt earlier s.graph) = true →
      Inert m dt a (AnimationSet.advance m.ensemble dt earlier s.graph).2 := by
    intro earlier a rest hsplit hid hleft
    have hmem : a ∈ s.effects.running := hsplit ▸ List.mem_append_right _ List.mem_cons_self
    obtain ⟨-, hsame⟩ := hfinds earlier a rest hsplit
    rw [hleft] at hsame
    exact Pulse.inert_of_gone m dt (hbilled.effect a hmem hid) hsame
  refine ⟨?_, ?_⟩
  · rintro earlier a rest t hsplit hid rfl
    refine ⟨?_, fun hstays => ?_, hturn earlier a rest hsplit hid⟩
    · show (AnimationSet.advance m.ensemble dt s.effects.running s.graph).2 = _
      rw [hsplit, AnimationSet.advance_append, AnimationSet.advance_cons]
    · have hmem : a ∈ s.effects.running := hsplit ▸ List.mem_append_right _ List.mem_cons_self
      obtain ⟨h, hsame⟩ := hfinds earlier a rest hsplit
      rw [hstays] at hsame
      rw [← hslot]
      exact Pulse.redrawn_of_sameNode m dt h (hbilled.effect a hmem hid) hsame
  · intro hleft b hb hid
    obtain ⟨earlier, a, rest, hsplit, hmem⟩ := AnimationSet.mem_advance m.ensemble dt hb
    obtain ⟨hsame, -⟩ := AnimationSet.mem_advance_singleton m.ensemble dt hmem
    have hinert := hturn earlier a rest hsplit (hsame.symm.trans hid) (by
      rw [GraphData.vacated_append, hleft, Bool.true_or])
    rw [hinert.turn] at hmem
    exact absurd hmem List.not_mem_nil

/-- Effects that make given calls once. -/
def scripts : Mutators (List Call) where
  progress calls _ _ := (false, [], calls)
  finish _ _ := []

/-- Beside a pulse of the node in the first slot, a script starts that replaces the node in its turn,
after that of the pulse. -/
def replacedNode : List (Cue (List Call)) :=
  [.add ⟨0x3ff0000000000000⟩ [.removeNode 0, .addNode default], .tick ⟨0x3fe0000000000000⟩]

/-- The pulse still runs then, the slot holds another node, and the next tick drops the pulse. -/
theorem pulse_confined_replaced :
    ∃ d₀, GraphData.new { nodes := ⟨2, 1⟩, edges := ⟨2, 1⟩ } = .ok d₀ ∧
      ∃ s₀ s₁ : Stage (List Call),
        s₀ = Stage.play scripts ⟨⟨d₀, #[]⟩, {}⟩ [.call (.addNode default)] ∧
        s₁ = s₀.step scripts (.pulse 0 ⟨0x3ff0000000000000⟩) ∧
        (Pulse.of? s₀.graph.value 0 ⟨0x3ff0000000000000⟩).isSome = true ∧
        fillings 0 s₀.graph (s₁.log scripts (replacedNode ++ [.tick .zero])) < UInt64.size ∧
        (vacated 0 s₀.graph (s₁.log scripts replacedNode) = true ∧
          (s₁.play scripts replacedNode).graph.value.nodes.isLive 0 = true ∧
          (s₁.play scripts replacedNode).effects.running.map (·.id) = [s₀.effects.nextId]) ∧
        ∀ b ∈ ((s₁.play scripts replacedNode).step scripts (.tick .zero)).effects.running,
          b.id ≠ s₀.effects.nextId := by
  have hnew : GraphData.new { nodes := ⟨2, 1⟩, edges := ⟨2, 1⟩ }
      = .ok { nodes := { config := ⟨2, 1⟩ }, edges := { config := ⟨2, 1⟩ } } := rfl
  refine ⟨_, hnew, _, _, rfl, rfl, by decide +kernel, by decide +kernel, by decide +kernel, ?_⟩
  exact (pulse_confined hnew scripts [.call (.addNode default)] replacedNode 0 ⟨0x3ff0000000000000⟩
    .zero rfl rfl (by decide +kernel) (by decide +kernel)).gone (by decide +kernel)

end LiveGraph
