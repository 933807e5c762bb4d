import LiveGraph.Proofs.Pulse

/-!
# Highlights of pulsing nodes

In its turn a pulse that finds its node switches the highlight on, and off again if it ends then. So after
a tick a node is shown as the pulse has left it that had its turn last. Turns are in the order in which
pulses started: after a tick a node with pulses is highlighted exactly if the latest of them goes on. Once
all pulses of a node have ended it is not highlighted. But a pulse that ends also takes the highlight
from a node on which an earlier one still runs, and only the next tick brings it back.
-/

namespace LiveGraph

open GraphData (Call resume vacated)

variable {ε : Type}

/-! ## What a node shows -/

namespace GraphData

/-- Whether the node in the slot is highlighted, if there is a node. -/
def highlight? (d : GraphData) (slot : Nat) : Option Bool :=
  if d.nodes.isLive slot then (d.nodes.record slot).toOption.map Record.isHighlighted else none

/-- A live node shows what its record says. -/
theorem highlight?_of_record {d : GraphData} {slot : Nat} {r : NodeRecord}
    (hlive : d.nodes.isLive slot = true) (hr : d.nodes.record slot = .ok r) :
    d.highlight? slot = some (Record.isHighlighted r) := by
  rw [highlight?, if_pos hlive, hr]
  rfl

/-- A node that is written over shows what was written. -/
theorem Consistent.highlight?_rewritten {d : GraphData} (h : d.Consistent) {slot : Nat}
    (hlive : d.nodes.isLive slot = true) {r : NodeRecord} {nodes : NodeStore}
    (hs : d.nodes.Rewritten slot r nodes) :
    ({ d with nodes } : GraphData).highlight? slot = some (Record.isHighlighted r) := by
  apply highlight?_of_record
  · exact (hs.live slot).trans hlive
  · show nodes.record slot = .ok r
    rw [hs.wellFormed.record_eq (hs.marked.capacity ▸ h.node_lt hlive), hs.record slot hlive,
      if_pos rfl]

/-- A call that draws anew leaves the nodes there are. -/
theorem Change.sameNodes {t : Tracked GraphData} {c : Call} {d : GraphData} (hc : Change t c d)
    (h : t.value.Consistent) (hredraws : c.redraws = true) : t.value.nodes.SameElements d.nodes := by
  cases hc with
  | refused _ => exact h.nodes.sameElements
  | redrawn _ hnodes _ => exact hnodes
  | _ => cases hredraws

theorem Call.redraws_of_mem_ite {call c : Call} (hcall : call.redraws = true) {made : Bool}
    (hc : c ∈ if made then [call] else []) : c.redraws = true := by
  split at hc
  · rw [List.mem_singleton.1 hc]
    exact hcall
  · exact absurd hc List.not_mem_nil

/-- Calls that change only how elements are shown leave the nodes where they are. -/
theorem Consistent.sameNodes_resume {t : Tracked GraphData} (h : t.value.Consistent)
    {calls : List Call} (hcalls : ∀ c ∈ calls, c.redraws = true) :
    t.value.nodes.SameElements (GraphData.resume t calls).value.nodes := by
  induction calls generalizing t with
  | nil => exact h.nodes.sameElements
  | cons c calls ih =>
    have hfirst := (h.change c).sameNodes h (hcalls c List.mem_cons_self)
    exact hfirst.trans (ih (h.call c) fun x hx => hcalls x (List.mem_cons_of_mem c hx))

end GraphData

/-! ## One turn -/

namespace Pulse

variable {p : Pulse} {t : Tracked GraphData}

/-- A pulse finds its node where the nodes are the same. -/
theorem sameNode_of_sameElements {d d' : GraphData} (h : d.Consistent) (h' : d'.Consistent)
    (hs : d.nodes.SameElements d'.nodes) (hsame : p.sameNode d = true) : p.sameNode d' = true := by
  rw [p.sameNode_iff h', hs.live, hs.data]
  exact (p.sameNode_iff h).1 hsame

/-- A pulse that finds its node turns the highlight on. -/
theorem highlight?_progress (h : t.value.Consistent) (hsame : p.sameNode t.value = true)
    (time : Double) : (choreography.progress p t time).2.2.value.highlight? p.slot = some true := by
  obtain ⟨d, events⟩ := t
  obtain ⟨hlive, -⟩ := (p.sameNode_iff h).1 hsame
  obtain ⟨nodes, heq, hs⟩ := h.updateNode_of_live hlive
    (fun r => Record.setHighlighted { r with radius := p.base * p.factor time } true) events
  have hprogress : (choreography.progress p ⟨d, events⟩ time).2.2 = ⟨{ d with nodes }, events⟩ := by
    show (p.attempt (p.display time) ⟨d, events⟩).2 = _
    rw [attempt_snd, if_pos hsame]
    exact Edit.after_of_ok heq
  rw [hprogress, h.highlight?_rewritten hlive hs, Record.isHighlighted_clearDeleted,
    Record.isHighlighted_setHighlighted]

/-- A pulse that finds its node turns the highlight off at its end. -/
theorem highlight?_finish (h : t.value.Consistent) (hsame : p.sameNode t.value = true) :
    (choreography.finish p t).value.highlight? p.slot = some false := by
  obtain ⟨d, events⟩ := t
  obtain ⟨hlive, -⟩ := (p.sameNode_iff h).1 hsame
  obtain ⟨nodes, heq, hs⟩ := h.highlightNode_of_live hlive false events
  have hfinish : choreography.finish p ⟨d, events⟩ = ⟨{ d with nodes }, events⟩ := by
    show (p.attempt (GraphData.setHighlighted .node p.slot false) ⟨d, events⟩).2 = _
    rw [attempt_snd, if_pos hsame, Edit.after_of_ok heq]
  rw [hfinish, h.highlight?_rewritten hlive hs, Record.isHighlighted_setHighlighted]

end Pulse

section

variable (m : Mutators ε) (dt : Double) {p : Pulse} {a : Animation (Pulse ⊕ ε)}
  {t : Tracked GraphData}

/-- All that a pulse does in its turn is to draw its node anew. -/
theorem Pulse.redraws_turnCalls (ha : a.effect = .inl p) :
    ∀ c ∈ m.turnCalls dt a t, c.redraws = true := by
  intro c hc
  have hprogress : m.ensemble.progress a.effect t ((dt + a.elapsed).min a.duration)
      = ((Pulse.choreography.progress p t ((dt + a.elapsed).min a.duration)).1, .inl p,
        (Pulse.choreography.progress p t ((dt + a.elapsed).min a.duration)).2.2) := by
    rw [ha]
    rfl
  rw [Mutators.turnCalls, hprogress, ha] at hc
  rcases List.mem_append.1 hc with hmade | hlast
  · exact Call.redraws_of_mem_ite rfl hmade
  · split at hlast
    · exact Call.redraws_of_mem_ite rfl hlast
    · exact absurd hlast List.not_mem_nil

/-- The turn of a pulse leaves the nodes where they are. -/
theorem Pulse.sameNodes_turn (h : t.value.Consistent) (ha : a.effect = .inl p) :
    (AnimationSet.advance m.ensemble dt [a] t).2.value.Consistent ∧
      t.value.nodes.SameElements (AnimationSet.advance m.ensemble dt [a] t).2.value.nodes := by
  rw [m.advance_singleton_snd]
  exact ⟨h.resume _, h.sameNodes_resume (Pulse.redraws_turnCalls m dt ha)⟩

/-- A pulse that finds its node goes on and leaves it highlighted, or ends and leaves it without. -/
theorem Pulse.highlight?_turn (h : t.value.Consistent) (ha : a.effect = .inl p)
    (hsame : p.sameNode t.value = true) :
    ∃ on, (AnimationSet.advance m.ensemble dt [a] t).2.value.highlight? p.slot = some on ∧
      (on = true ↔ a.id ∈ (AnimationSet.advance m.ensemble dt [a] t).1.map (·.id)) := by
  obtain ⟨t', hpulse, -, h', hstill⟩ :=
    p.progress_of_sameNode h hsame ((dt + a.elapsed).min a.duration)
  have hprogress : m.ensemble.progress a.effect t ((dt + a.elapsed).min a.duration)
      = (true, .inl p, t') := by
    rw [ha]
    exact Choreography.progress_inl hpulse m.choreography
  rw [AnimationSet.advance_of_progress m.ensemble dt hprogress []]
  split
  · refine ⟨false, p.highlight?_finish h' hstill, ?_⟩
    simp [AnimationSet.advance]
  · have hlit := p.highlight?_progress h hsame ((dt + a.elapsed).min a.duration)
    rw [hpulse] at hlit
    refine ⟨true, hlit, ?_⟩
    simp [AnimationSet.advance]

/-- The turn of a pulse does not change what the node in another slot shows. -/
theorem Pulse.highlight?_turn_elsewhere (h : t.value.Consistent) (ha : a.effect = .inl p) {slot : Nat}
    (hlive : t.value.nodes.isLive slot = true) (hne : p.slot ≠ slot) :
    (AnimationSet.advance m.ensemble dt [a] t).2.value.highlight? slot = t.value.highlight? slot := by
  obtain ⟨-, hs⟩ := Pulse.sameNodes_turn m dt h ha
  cases hsame : p.sameNode t.value with
  | true =>
    have hrecord := (Pulse.redrawn_of_sameNode m dt h ha hsame).others slot (h.node_lt hlive) hne.symm
    rw [GraphData.highlight?, GraphData.highlight?, hs.live, hrecord]
  | false => rw [(Pulse.inert_of_gone m dt ha hsame).turn]

end

/-! ## One tick -/

section

variable (m : Mutators ε) (dt : Double) {t : Tracked GraphData}

/-- Pulses leave the nodes where they are. -/
theorem sameNodes_advance {as : List (Animation (Pulse ⊕ ε))} (h : t.value.Consistent)
    (hpulses : ∀ b ∈ as, ∃ p : Pulse, b.effect = .inl p) :
    (AnimationSet.advance m.ensemble dt as t).2.value.Consistent ∧
      t.value.nodes.SameElements (AnimationSet.advance m.ensemble dt as t).2.value.nodes := by
  induction as generalizing t with
  | nil => exact ⟨h, h.nodes.sameElements⟩
  | cons b as ih =>
    rw [AnimationSet.advance_cons]
    obtain ⟨p, hp⟩ := hpulses b List.mem_cons_self
    obtain ⟨hnext, hfirst⟩ := Pulse.sameNodes_turn m dt h hp
    obtain ⟨hend, hrest⟩ := ih hnext fun x hx => hpulses x (List.mem_cons_of_mem b hx)
    exact ⟨hend, hfirst.trans hrest⟩

/-- Pulses in other slots do not change what a node shows. -/
theorem highlight?_advance_elsewhere {as : List (Animation (Pulse ⊕ ε))} (h : t.value.Consistent)
    {slot : Nat} (hlive : t.value.nodes.isLive slot = true)
    (hothers : ∀ b ∈ as, ∃ p : Pulse, b.effect = .inl p ∧ p.slot ≠ slot) :
    (AnimationSet.advance m.ensemble dt as t).2.value.highlight? slot = t.value.highlight? slot := by
  induction as generalizing t with
  | nil => rfl
  | cons b as ih =>
    rw [AnimationSet.advance_cons]
    obtain ⟨p, hp, hne⟩ := hothers b List.mem_cons_self
    obtain ⟨hnext, hs⟩ := Pulse.sameNodes_turn m dt h hp
    have hrest := ih hnext ((hs.live slot).trans hlive) fun x hx => hothers x (List.mem_cons_of_mem b hx)
    exact hrest.trans (Pulse.highlight?_turn_elsewhere m dt h hp hlive hne)

/-- The last pulse that finds its node in a slot decides what the node shows: it is highlighted if that
pulse goes on. -/
theorem highlight?_advance_last {earlier rest : List (Animation (Pulse ⊕ ε))}
    {a : Animation (Pulse ⊕ ε)} {p : Pulse} (h : t.value.Consistent)
    (hincreasing : (earlier ++ a :: rest).Pairwise fun x y => x.id < y.id)
    (hearlier : ∀ b ∈ earlier, ∃ q : Pulse, b.effect = .inl q) (ha : a.effect = .inl p)
    (hsame : p.sameNode t.value = true)
    (hrest : ∀ b ∈ rest, ∃ q : Pulse, b.effect = .inl q ∧ q.slot ≠ p.slot) :
    ∃ on, (AnimationSet.advance m.ensemble dt (earlier ++ a :: rest) t).2.value.highlight? p.slot = some on ∧
      (on = true ↔
        a.id ∈ (AnimationSet.advance m.ensemble dt (earlier ++ a :: rest) t).1.map (·.id)) := by
  obtain ⟨h₁, hs₁⟩ := sameNodes_advance m dt h hearlier
  have hbefore := AnimationSet.ids_advance_sublist m.ensemble dt earlier t
  rw [AnimationSet.advance_append, AnimationSet.advance_cons]
  generalize AnimationSet.advance m.ensemble dt earlier t = first at h₁ hs₁ hbefore ⊢
  have hfound := Pulse.sameNode_of_sameElements h h₁ hs₁ hsame
  obtain ⟨on, hshown, hruns⟩ := Pulse.highlight?_turn m dt h₁ ha hfound
  obtain ⟨h₂, hs₂⟩ := Pulse.sameNodes_turn m dt h₁ ha
  generalize AnimationSet.advance m.ensemble dt [a] first.2 = turn at hshown hruns h₂ hs₂ ⊢
  -- those behind it draw other nodes, so the highlight stays as it has left it
  have hlive : turn.2.value.nodes.isLive p.slot = true := by
    rw [hs₂.live]
    exact ((p.sameNode_iff h₁).1 hfound).1
  have hafter := AnimationSet.ids_advance_sublist m.ensemble dt rest turn.2
  refine ⟨on, (highlight?_advance_elsewhere m dt h₂ hlive hrest).trans hshown, ?_⟩
  -- no other animation has the id, so that it is found only where it was
  obtain ⟨-, hlater, hless⟩ := List.pairwise_append.1 hincreasing
  have hnotBefore : a.id ∉ first.1.map (·.id) := by
    intro hmem
    obtain ⟨b, hb, hid⟩ := List.mem_map.1 (hbefore.subset hmem)
    exact absurd hid (Nat.ne_of_lt (hless b hb a List.mem_cons_self))
  have hnotAfter : a.id ∉ (AnimationSet.advance m.ensemble dt rest turn.2).1.map (·.id) := by
    intro hmem
    obtain ⟨b, hb, hid⟩ := List.mem_map.1 (hafter.subset hmem)
    exact absurd hid.symm (Nat.ne_of_lt ((List.pairwise_cons.1 hlater).1 b hb))
  simp only [List.map_append, List.mem_append, hnotBefore, hnotAfter, false_or, or_false]
  exact hruns

end

/-! ## Plays -/

/-- Of the members of a list that have a property, one is the last. -/
theorem exists_last_of_mem {α : Type} {P : α → Prop} {as : List α} (h : ∃ a ∈ as, P a) :
    ∃ earlier a rest, as = earlier ++ a :: rest ∧ P a ∧ ∀ b ∈ rest, ¬ P b := by
  induction as with
  | nil =>
    obtain ⟨a, ha, -⟩ := h
    exact absurd ha List.not_mem_nil
  | cons x as ih =>
    by_cases hlater : ∃ a ∈ as, P a
    · obtain ⟨earlier, a, rest, rfl, ha, hrest⟩ := ih hlater
      exact ⟨x :: earlier, a, rest, rfl, ha, hrest⟩
    · obtain ⟨a, ha, hP⟩ := h
      rcases List.mem_cons.1 ha with rfl | hmem
      · exact ⟨[], a, as, rfl, hP, fun b hb hb' => hlater ⟨b, hb, hb'⟩⟩
      · exact absurd ⟨a, hmem, hP⟩ hlater

namespace AnimationSet

/-- An animation with the id is running. -/
def Runs {κ : Type} (s : AnimationSet κ) (id : Nat) : Prop := id ∈ s.running.map (·.id)

instance {κ : Type} (s : AnimationSet κ) (id : Nat) : Decidable (s.Runs id) :=
  inferInstanceAs (Decidable (id ∈ s.running.map (·.id)))

end AnimationSet

namespace Stage

variable {m : Mutators ε} {s : Stage ε}

/-- After some cues, `id` is a pulse of the node in the slot: it was started there, and the node has not
been removed since. -/
def PulseOf (m : Mutators ε) (s : Stage ε) (cues : List (Cue ε)) (slot id : Nat) : Prop :=
  ∃ before duration later, cues = before ++ .pulse slot duration :: later ∧
    (Pulse.of? (s.play m before).graph.value slot duration).isSome = true ∧
    id = (s.play m before).effects.nextId ∧
    vacated slot (s.play m before).graph ((s.play m before).log m (.pulse slot duration :: later)) = false

theorem play_append (cues more : List (Cue ε)) :
    s.play m (cues ++ more) = (s.play m cues).play m more := List.foldl_append

/-- Turns are in the order of the ids, and no id is in use that is still to be given. -/
structure Enlisted (s : Stage ε) : Prop where
  numbered : s.Numbered
  increasing : s.effects.running.Pairwise fun a b => a.id < b.id

theorem Enlisted.add (h : s.Enlisted) (duration : Double) (e : Pulse ⊕ ε) :
    Enlisted { s with effects := (s.effects.add duration e).2 } := by
  refine ⟨h.numbered.recast (recast_add s duration e), ?_⟩
  refine List.pairwise_append.2 ⟨h.increasing, List.pairwise_singleton _ _, fun a ha b hb => ?_⟩
  rw [List.mem_singleton.1 hb]
  exact h.numbered a ha

/-- The animations stay in the order in which they were started. -/
theorem Enlisted.step (h : s.Enlisted) (q : Cue ε) : (s.step m q).Enlisted := by
  cases q with
  | call c => exact ⟨h.numbered, h.increasing⟩
  | pulse slot duration =>
    unfold Stage.step
    dsimp only
    split
    · exact h.add duration _
    · exact h
  | add duration e => exact h.add duration _
  | cancel id =>
    exact ⟨h.numbered.recast (s.recast_step m _), h.increasing.sublist List.filter_sublist⟩
  | tick dt =>
    refine ⟨h.numbered.recast (s.recast_step m _), ?_⟩
    have hids := AnimationSet.ids_advance_sublist m.ensemble dt s.effects.running s.graph
    exact List.pairwise_map.1 ((List.pairwise_map.2 h.increasing).sublist hids)

theorem enlisted_play (m : Mutators ε) (hempty : s.effects.running = []) (cues : List (Cue ε)) :
    (s.play m cues).Enlisted := by
  refine play_induction ⟨fun a ha => ?_, ?_⟩ (fun s' q h => h.step q) cues
  · rw [hempty] at ha
    exact absurd ha List.not_mem_nil
  · rw [hempty]
    exact .nil

/-- The next id only grows. -/
theorem nextId_le_play (m : Mutators ε) (s : Stage ε) (cues : List (Cue ε)) :
    s.effects.nextId ≤ (s.play m cues).effects.nextId :=
  play_induction (P := fun s' => s.effects.nextId ≤ s'.effects.nextId) (Nat.le_refl _)
    (fun s' q h => Nat.le_trans h (s'.recast_step m q).nextId) cues

/-- A pulse that runs after a cue has run before, or starts with the cue. -/
theorem origin_step {q : Cue ε} {b : Animation (Pulse ⊕ ε)} {p : Pulse}
    (hb : b ∈ (s.step m q).effects.running) (hp : b.effect = .inl p) :
    (∃ a ∈ s.effects.running, a.id = b.id ∧ a.effect = .inl p) ∨
      ∃ slot duration, q = .pulse slot duration ∧
        Pulse.of? s.graph.value slot duration = some p ∧ b.id = s.effects.nextId := by
  cases q with
  | call c => exact .inl ⟨b, hb, rfl, hp⟩
  | pulse slot duration =>
    cases hstarts : Pulse.of? s.graph.value slot duration with
    | none =>
      rw [Stage.step, hstarts] at hb
      exact .inl ⟨b, hb, rfl, hp⟩
    | some p' =>
      rw [Stage.step, hstarts] at hb
      rcases mem_running_add hb with hold | ⟨hid, heffect⟩
      · exact .inl ⟨b, hold, rfl, hp⟩
      · rw [hp] at heffect
        cases heffect
        exact .inr ⟨slot, duration, rfl, hstarts, hid⟩
  | add duration e =>
    rcases mem_running_add hb with hold | ⟨-, heffect⟩
    · exact .inl ⟨b, hold, rfl, hp⟩
    · rw [hp] at heffect
      cases heffect
  | cancel id => exact .inl ⟨b, (List.mem_filter.1 hb).1, rfl, hp⟩
  -- a tick starts nothing, and a pulse remains the same pulse
  | tick dt =>
    obtain ⟨earlier, a, rest, hsplit, hturn⟩ := AnimationSet.mem_advance m.ensemble dt hb
    obtain ⟨hid, time, heffect⟩ := AnimationSet.mem_advance_singleton m.ensemble dt hturn
    refine .inl ⟨a, ?_, hid.symm, ?_⟩
    · rw [hsplit]
      exact List.mem_append_right _ List.mem_cons_self
    · rw [hp] at heffect
      cases ha : a.effect with
      | inl p' =>
        rw [ha] at heffect
        exact heffect.symm
      | inr e =>
        rw [ha] at heffect
        cases heffect

/-- A pulse that runs after some cues has run before, or one of the cues has started it. -/
theorem origin_play {cues : List (Cue ε)} {b : Animation (Pulse ⊕ ε)} {p : Pulse}
    (hb : b ∈ (s.play m cues).effects.running) (hp : b.effect = .inl p) :
    (∃ a ∈ s.effects.running, a.id = b.id ∧ a.effect = .inl p) ∨
      ∃ before slot duration later, cues = before ++ .pulse slot duration :: later ∧
        Pulse.of? (s.play m before).graph.value slot duration = some p ∧
        b.id = (s.play m before).effects.nextId := by
  induction cues generalizing s with
  | nil => exact .inl ⟨b, hb, rfl, hp⟩
  | cons q cues ih =>
    rcases ih (s := s.step m q) hb with ⟨a, ha, hid, heffect⟩ | ⟨before, slot, duration, later, rfl, hstart⟩
    · rcases origin_step ha heffect with ⟨a', ha', hid', heffect'⟩ | ⟨slot, duration, rfl, hof, hnext⟩
      · exact .inl ⟨a', ha', hid'.trans hid, heffect'⟩
      · exact .inr ⟨[], slot, duration, cues, rfl, hof, hid.symm.trans hnext⟩
    · exact .inr ⟨q :: before, slot, duration, later, rfl, hstart⟩

section

variable {cues : List (Cue ε)} {slot id : Nat}

theorem consistent_play (h : s.graph.value.Consistent) (cues : List (Cue ε)) :
    (s.play m cues).graph.value.Consistent := by
  rw [graph_play]
  exact GraphData.Consistent.resume h _

/-- A pulse of a node finds the node. -/
theorem PulseOf.finds (hpulse : s.PulseOf m cues slot id) (h : s.graph.value.Consistent)
    (hempty : s.effects.running = []) {a : Animation (Pulse ⊕ ε)}
    (ha : a ∈ (s.play m cues).effects.running) (hid : a.id = id) :
    ∃ p : Pulse, a.effect = .inl p ∧ p.slot = slot ∧
      p.sameNode (s.play m cues).graph.value = true := by
  obtain ⟨before, duration, later, rfl, hstarts, rfl, hstays⟩ := hpulse
  obtain ⟨p, hp⟩ := Option.isSome_iff_exists.1 hstarts
  have h₁ := consistent_play (m := m) h before
  rw [play_append] at ha ⊢
  have hbilled : ((s.play m before).play m (.pulse slot duration :: later)).Billed
      (s.play m before).effects.nextId p :=
    play_induction ((enlisted_play m hempty before).numbered.billed hp)
      (fun s' q hs => hs.recast (s'.recast_step m q)) later
  -- the node has stayed, so that no other one has started a new generation in the slot
  obtain ⟨hlive, hslot, hgeneration⟩ := Pulse.of?_eq_some h₁ hp
  obtain ⟨hstill, hnone⟩ := h₁.stays hlive hstays
  refine ⟨p, hbilled.effect a ha hid, hslot, ?_⟩
  rw [graph_play, p.sameNode_iff (h₁.resume _), hslot, h₁.generation_resume, hnone, hgeneration]
  exact ⟨hstill, UInt64.add_zero _⟩

/-- A pulse that runs in the slot and was started after one of the node is a pulse of the same node. -/
theorem PulseOf.later (hpulse : s.PulseOf m cues slot id) (h : s.graph.value.Consistent)
    (hempty : s.effects.running = []) {b : Animation (Pulse ⊕ ε)} {p : Pulse}
    (hb : b ∈ (s.play m cues).effects.running) (hp : b.effect = .inl p) (hslot : p.slot = slot)
    (hlt : id < b.id) : s.PulseOf m cues slot b.id := by
  rcases origin_play hb hp with ⟨a, ha, -⟩ | ⟨before', slot', duration', later', hcues', hstarts', hid'⟩
  · rw [hempty] at ha
    exact absurd ha List.not_mem_nil
  obtain ⟨-, hslot', -⟩ := Pulse.of?_eq_some (consistent_play h before') hstarts'
  obtain rfl : slot' = slot := hslot'.symm.trans hslot
  obtain ⟨before, duration, later, hcues, -, rfl, hstays⟩ := hpulse
  rw [hcues'] at hcues
  refine ⟨before', duration', later', hcues', ?_, hid', ?_⟩
  · rw [hstarts']
    rfl
  · rcases List.append_eq_append_iff.1 hcues with ⟨between, hbefore, -⟩ | ⟨between, hbefore, hrest⟩
    · -- had it started before the one of the node, it would have the smaller id
      have hle := nextId_le_play m (s.play m before') between
      rw [← play_append, ← hbefore, ← hid'] at hle
      exact absurd hlt (Nat.not_lt_of_le hle)
    · -- what has happened since it started is the end of what has happened since the one of the node
      rw [hrest, log_append, GraphData.vacated_append, ← graph_play, ← play_append, ← hbefore] at hstays
      exact (Bool.or_eq_false_iff.1 hstays).2

/-- Of the pulses of a node that run, the latest has its turn after all others, and no pulse that comes
after it is in the slot. -/
theorem PulseOf.exists_latest (hpulse : s.PulseOf m cues slot id) (h : s.graph.value.Consistent)
    (hempty : s.effects.running = []) (hruns : (s.play m cues).effects.Runs id) :
    ∃ earlier a rest, (s.play m cues).effects.running = earlier ++ a :: rest ∧
      s.PulseOf m cues slot a.id ∧
      (∀ b ∈ rest, ∀ p : Pulse, b.effect = .inl p → p.slot ≠ slot) ∧
      ∀ x, s.PulseOf m cues slot x → (s.play m cues).effects.Runs x → x ≤ a.id := by
  obtain ⟨b, hb, rfl⟩ := List.mem_map.1 hruns
  obtain ⟨earlier, a, rest, hsplit, ha, hrest⟩ :=
    exists_last_of_mem (P := fun x => s.PulseOf m cues slot x.id) ⟨b, hb, hpulse⟩
  have hincreasing := (enlisted_play m hempty cues).increasing
  rw [hsplit] at hincreasing
  obtain ⟨-, hlater, hless⟩ := List.pairwise_append.1 hincreasing
  -- a later pulse of the same node would be one of those looked for
  refine ⟨earlier, a, rest, hsplit, ha, fun b hb p hp hslot => hrest b hb ?_, fun x hx hxruns => ?_⟩
  · have hmem : b ∈ (s.play m cues).effects.running := by
      rw [hsplit]
      exact List.mem_append_right _ (List.mem_cons_of_mem a hb)
    exact ha.later h hempty hmem hp hslot ((List.pairwise_cons.1 hlater).1 b hb)
  · obtain ⟨c, hc, rfl⟩ := List.mem_map.1 hxruns
    rw [hsplit, List.mem_append, List.mem_cons] at hc
    rcases hc with hbefore | rfl | hafter
    · exact Nat.le_of_lt (hless c hbefore a List.mem_cons_self)
    · exact Nat.le_refl _
    · exact absurd hx (hrest c hafter)

end

end Stage

/-! ## Nothing but pulses -/

/-- No effects beside pulses. -/
def Mutators.none : Mutators Empty where
  progress e := e.elim
  finish e := e.elim

/-- The pulse, where there are no other effects. -/
def Pulse.alone : Pulse ⊕ Empty → Pulse
  | .inl p => p
  | .inr e => e.elim

theorem Pulse.eq_inl_alone (e : Pulse ⊕ Empty) : e = .inl (Pulse.alone e) := by
  cases e with
  | inl p => rfl
  | inr e => exact e.elim

namespace Stage

/-- The pulses of a stage. -/
def pulses (s : Stage Empty) : AnimationSet Pulse :=
  { running := s.effects.running.map (·.map Pulse.alone), nextId := s.effects.nextId }

theorem runs_pulses (s : Stage Empty) (id : Nat) : s.pulses.Runs id ↔ s.effects.Runs id := by
  have hids : s.pulses.running.map (·.id) = s.effects.running.map (·.id) := List.map_map
  rw [AnimationSet.Runs, hids, AnimationSet.Runs]

/-- The pulses of a stage tick as they do without it. -/
theorem tick_pulses (s : Stage Empty) (dt : Double) :
    Pulse.tick s.pulses dt s.graph
      = .ok (s.step .none (.tick dt)).pulses (s.step .none (.tick dt)).graph := by
  have hprogress : ∀ (e : Pulse ⊕ Empty) t time, Pulse.choreography.progress (Pulse.alone e) t time
      = ((Mutators.none.ensemble.progress e t time).1,
        Pulse.alone (Mutators.none.ensemble.progress e t time).2.1,
        (Mutators.none.ensemble.progress e t time).2.2) := by
    intro e t time
    rw [Pulse.eq_inl_alone e]
    rfl
  have hfinish : ∀ (e : Pulse ⊕ Empty) t,
      Pulse.choreography.finish (Pulse.alone e) t = Mutators.none.ensemble.finish e t := by
    intro e t
    rw [Pulse.eq_inl_alone e]
    rfl
  unfold Pulse.tick AnimationSet.tick pulses
  rw [AnimationSet.advance_map hprogress hfinish]
  rfl

end Stage

/-- After a tick, a node is highlighted exactly if the latest of its pulses that ran before the tick still
runs; if all of them have ended, it is not. Any cues have led to the graph, and the node in the slot has a
pulse that runs before the tick and has not been removed since that pulse started. -/
theorem highlight_follows_latest_pulse {config : GraphConfig} {d₀ : GraphData}
    (hnew : GraphData.new config = .ok d₀) (cues : List (Cue Empty)) (slot : Nat) (dt : Double)
    {s₀ s : Stage Empty} (hs₀ : s₀ = ⟨⟨d₀, #[]⟩, {}⟩) (hs : s = s₀.play .none cues)
    {pulses : AnimationSet Pulse} {t : Tracked GraphData}
    (htick : Pulse.tick s.pulses dt s.graph = .ok pulses t)
    {id : Nat} (hpulse : s₀.PulseOf .none cues slot id) (hruns : s.pulses.Runs id) :
    ∃ on, t.value.highlight? slot = some on ∧
      (on = true ↔ ∃ latest, s₀.PulseOf .none cues slot latest ∧ pulses.Runs latest ∧
        ∀ x, s₀.PulseOf .none cues slot x → s.pulses.Runs x → x ≤ latest) ∧
      ((∀ x, s₀.PulseOf .none cues slot x → ¬ pulses.Runs x) → on = false) := by
  rw [s.tick_pulses dt] at htick
  cases htick
  simp only [Stage.runs_pulses] at hruns ⊢
  have h₀ : s₀.graph.value.Consistent := by
    rw [hs₀]
    exact GraphData.consistent_new hnew
  have hempty : s₀.effects.running = [] := by rw [hs₀]
  rw [hs] at hruns
  obtain ⟨earlier, a, rest, hsplit, ha, hrest, hlatest⟩ := hpulse.exists_latest h₀ hempty hruns
  have hincreasing := (Stage.enlisted_play .none hempty cues).increasing
  have h := Stage.consistent_play (m := .none) h₀ cues
  have hmem : a ∈ (s₀.play .none cues).effects.running := by
    rw [hsplit]
    exact List.mem_append_right _ List.mem_cons_self
  obtain ⟨p, hp, rfl, hsame⟩ := ha.finds h₀ hempty hmem rfl
  rw [← hs] at hsplit hincreasing h hsame hlatest
  rw [hsplit] at hincreasing
  obtain ⟨on, hshown, hgoes⟩ := highlight?_advance_last .none dt h hincreasing
    (fun b _ => ⟨_, Pulse.eq_inl_alone b.effect⟩) hp hsame
    (fun b hb => ⟨_, Pulse.eq_inl_alone b.effect, hrest b hb _ (Pulse.eq_inl_alone b.effect)⟩)
  rw [← hsplit] at hshown hgoes
  -- the latest pulse is the one that has its turn last
  refine ⟨on, hshown, ⟨fun hon => ⟨a.id, ha, hgoes.1 hon, hlatest⟩, ?_⟩, fun hnone => ?_⟩
  · rintro ⟨latest, hof, hstill, hmost⟩
    have hbefore : s.effects.Runs latest :=
      (AnimationSet.ids_advance_sublist _ dt s.effects.running s.graph).subset hstill
    have hruns : s.effects.Runs a.id := List.mem_map.2 ⟨a, hs ▸ hmem, rfl⟩
    have hsameId : latest = a.id := Nat.le_antisymm (hlatest latest hof hbefore) (hmost a.id ha hruns)
    exact hgoes.2 (hsameId ▸ hstill)
  · rw [Bool.eq_false_iff]
    intro hon
    exact hnone a.id ha (hgoes.1 hon)

/-- A stage without nodes. -/
def bareStage : Stage Empty :=
  ⟨⟨{ nodes := { config := ⟨2, 1⟩ }, edges := { config := ⟨2, 1⟩ } }, #[]⟩, {}⟩

/-- A node with a pulse goes, and another one takes its slot. Two pulses start on this one, the first of one
second and the second of ten. -/
def shortThenLong : List (Cue Empty) :=
  [.call (.addNode default), .pulse 0 ⟨0x4024000000000000⟩, .call (.removeNode 0),
    .call (.addNode default), .pulse 0 ⟨0x3ff0000000000000⟩, .pulse 0 ⟨0x4024000000000000⟩]

/-- After two seconds the short pulse has ended, and the long one keeps the node highlighted. -/
theorem highlight_follows_latest_pulse_long :
    ∃ d₀, GraphData.new { nodes := ⟨2, 1⟩, edges := ⟨2, 1⟩ } = .ok d₀ ∧ bareStage = ⟨⟨d₀, #[]⟩, {}⟩ ∧
      ∃ s pulses t, s = bareStage.play .none shortThenLong ∧
        Pulse.tick s.pulses ⟨0x4000000000000000⟩ s.graph = .ok pulses t ∧
        bareStage.PulseOf .none shortThenLong 0 1 ∧ s.pulses.Runs 1 ∧ ¬ pulses.Runs 1 ∧
        t.value.highlight? 0 = some true := by
  have hnew : GraphData.new { nodes := ⟨2, 1⟩, edges := ⟨2, 1⟩ }
      = .ok { nodes := { config := ⟨2, 1⟩ }, edges := { config := ⟨2, 1⟩ } } := rfl
  have hshort : bareStage.PulseOf .none shortThenLong 0 1 :=
    ⟨shortThenLong.take 4, _, shortThenLong.drop 5, rfl, by decide +kernel, by decide +kernel,
      by decide +kernel⟩
  have hlong : bareStage.PulseOf .none shortThenLong 0 2 :=
    ⟨shortThenLong.take 5, _, [], rfl, by decide +kernel, by decide +kernel, by decide +kernel⟩
  -- the first pulse of the stage has id zero, so that three have been started
  have hruns : ∀ x, (bareStage.play .none shortThenLong).pulses.Runs x → x ≤ 2 := by
    have hids : (bareStage.play .none shortThenLong).pulses.running.map (·.id) = List.range 3 := by
      decide +kernel
    intro x hx
    rw [AnimationSet.Runs, hids] at hx
    exact Nat.le_of_lt_succ (List.mem_range.1 hx)
  refine ⟨_, hnew, rfl, _, _, _, rfl, Stage.tick_pulses _ _, hshort, by decide +kernel,
    by decide +kernel, ?_⟩
  have hbare : bareStage = ⟨⟨{ nodes := { config := ⟨2, 1⟩ }, edges := { config := ⟨2, 1⟩ } }, #[]⟩, {}⟩ := rfl
  obtain ⟨on, hshown, hlatest, -⟩ := highlight_follows_latest_pulse hnew shortThenLong 0
    ⟨0x4000000000000000⟩ hbare rfl (Stage.tick_pulses _ _) hshort (by decide +kernel)
  rw [hshown, hlatest.2 ⟨2, hlong, by decide +kernel, fun x _ => hruns x⟩]

/-- Two pulses of one node, the first of ten seconds and the second of one. -/
def longThenShort : List (Cue Empty) :=
  [.call (.addNode default), .pulse 0 ⟨0x4024000000000000⟩, .pulse 0 ⟨0x3ff0000000000000⟩]

/-- After two seconds the long pulse still runs, but its node is not highlighted. -/
theorem pulsing_node_not_highlighted :
    ∃ d₀, GraphData.new { nodes := ⟨2, 1⟩, edges := ⟨2, 1⟩ } = .ok d₀ ∧ bareStage = ⟨⟨d₀, #[]⟩, {}⟩ ∧
      ∃ s pulses t, s = bareStage.play .none longThenShort ∧
        Pulse.tick s.pulses ⟨0x4000000000000000⟩ s.graph = .ok pulses t ∧
        bareStage.PulseOf .none longThenShort 0 0 ∧ pulses.Runs 0 ∧
        t.value.highlight? 0 = some false := by
  have hlong : bareStage.PulseOf .none longThenShort 0 0 :=
    ⟨longThenShort.take 1, _, longThenShort.drop 2, rfl, by decide +kernel, by decide +kernel,
      by decide +kernel⟩
  exact ⟨_, rfl, rfl, _, _, _, rfl, Stage.tick_pulses _ _, hlong, by decide +kernel, by decide +kernel⟩

end LiveGraph
