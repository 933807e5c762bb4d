import LiveGraph.Proofs.Animation
import LiveGraph.Proofs.Graph.Change
import LiveGraph.Pulse

/-!
# Graphs with animations

A stage is a graph with the animations that play on it: pulses, and beside them effects of any other
sort that edit the graph through calls. Whatever happens on a stage, a call from outside, an animation
that starts or is stopped, or a tick, the graph goes where the calls lead that are made. The log of a
play is all these calls in order, also those that animations make in their turns.
-/

namespace LiveGraph

open GraphData (Call resume)

variable {ε : Type}

/-! ## Effects as calls -/

namespace Pulse

/-- The calls with which a pulse makes progress. -/
def progressCalls (p : Pulse) (t : Tracked GraphData) (time : Double) : List Call :=
  if p.sameNode t.value then
    [.updateNode p.slot fun r => Record.setHighlighted { r with radius := p.base * p.factor time } true]
  else []

/-- The calls with which a pulse ends. -/
def finishCalls (p : Pulse) (t : Tracked GraphData) : List Call :=
  if p.sameNode t.value then [.setHighlighted .node p.slot false] else []

/-- A pulse tries an edit only if it finds its node. -/
theorem attempt_snd (p : Pulse) (edit : GraphEdit Unit) (t : Tracked GraphData) :
    (p.attempt edit t).2 = if p.sameNode t.value then edit.after t else t := by
  unfold attempt Edit.after
  split
  · cases edit t with
    | ok a t' => rfl
    | error e t' => rfl
  · rfl

/-- A turn of a pulse is a call on the graph, or none. -/
theorem progress_resume (p : Pulse) (t : Tracked GraphData) (time : Double) :
    (choreography.progress p t time).2.2 = resume t (p.progressCalls t time) := by
  show (p.attempt (p.display time) t).2 = _
  rw [attempt_snd, progressCalls]
  split
  · rfl
  · rfl

/-- The end of a pulse is a call on the graph, or none. -/
theorem finish_resume (p : Pulse) (t : Tracked GraphData) :
    choreography.finish p t = resume t (p.finishCalls t) := by
  show (p.attempt (GraphData.setHighlighted .node p.slot false) t).2 = _
  rw [attempt_snd, finishCalls]
  split
  · rfl
  · rfl

end Pulse

/-- Effects that edit a graph through calls. -/
structure Mutators (ε : Type) where
  /-- Whether the effect goes on at a time, what it becomes, and the calls it makes. -/
  progress : ε → Tracked GraphData → Double → Bool × ε × List Call
  /-- The calls with which it ends. -/
  finish : ε → Tracked GraphData → List Call

namespace Mutators

/-- The effects make their calls. -/
def choreography (m : Mutators ε) : Choreography (Tracked GraphData) ε where
  progress e t time :=
    let (goesOn, e, calls) := m.progress e t time
    (goesOn, e, resume t calls)
  finish e t := resume t (m.finish e t)

/-- The effects beside pulses. -/
def ensemble (m : Mutators ε) : Choreography (Tracked GraphData) (Pulse ⊕ ε) :=
  Pulse.choreography.sum m.choreography

/-- The calls with which an effect of the ensemble makes progress. -/
def progressCalls (m : Mutators ε) : Pulse ⊕ ε → Tracked GraphData → Double → List Call
  | .inl p, t, time => p.progressCalls t time
  | .inr e, t, time => (m.progress e t time).2.2

/-- The calls with which it ends. -/
def finishCalls (m : Mutators ε) : Pulse ⊕ ε → Tracked GraphData → List Call
  | .inl p, t => p.finishCalls t
  | .inr e, t => m.finish e t

/-- The calls in the turn of an animation. -/
def turnCalls (m : Mutators ε) (dt : Double) (a : Animation (Pulse ⊕ ε)) (t : Tracked GraphData) :
    List Call :=
  let time := (dt + a.elapsed).min a.duration
  let (goesOn, effect, t') := m.ensemble.progress a.effect t time
  m.progressCalls a.effect t time ++
    if a.duration.lt (dt + a.elapsed) || !goesOn then m.finishCalls effect t' else []

/-- The calls in the turns of several animations. -/
def tickCalls (m : Mutators ε) (dt : Double) :
    List (Animation (Pulse ⊕ ε)) → Tracked GraphData → List Call
  | [], _ => []
  | a :: rest, t => m.turnCalls dt a t ++ tickCalls m dt rest (resume t (m.turnCalls dt a t))

variable (m : Mutators ε)

/-- A turn of any effect is calls on the graph. -/
theorem progress_resume (e : Pulse ⊕ ε) (t : Tracked GraphData) (time : Double) :
    (m.ensemble.progress e t time).2.2 = resume t (m.progressCalls e t time) := by
  cases e with
  | inl p => exact p.progress_resume t time
  | inr e => rfl

theorem finish_resume (e : Pulse ⊕ ε) (t : Tracked GraphData) :
    m.ensemble.finish e t = resume t (m.finishCalls e t) := by
  cases e with
  | inl p => exact p.finish_resume t
  | inr e => rfl

/-- What one animation does to the graph are the calls of its turn. -/
theorem advance_singleton_snd (dt : Double) (a : Animation (Pulse ⊕ ε)) (t : Tracked GraphData) :
    (AnimationSet.advance m.ensemble dt [a] t).2 = resume t (m.turnCalls dt a t) := by
  have hmade := m.progress_resume a.effect t ((dt + a.elapsed).min a.duration)
  cases hprogress : m.ensemble.progress a.effect t ((dt + a.elapsed).min a.duration) with
  | mk goesOn next =>
    rw [hprogress] at hmade
    rw [AnimationSet.advance_of_progress m.ensemble dt hprogress [], turnCalls, hprogress,
      GraphData.resume_append, ← hmade]
    cases a.duration.lt (dt + a.elapsed) || !goesOn with
    | true => exact m.finish_resume next.1 next.2
    | false => rfl

/-- What a tick does to the graph are the calls of all turns, one after the other. -/
theorem advance_snd (dt : Double) (as : List (Animation (Pulse ⊕ ε))) (t : Tracked GraphData) :
    (AnimationSet.advance m.ensemble dt as t).2 = resume t (m.tickCalls dt as t) := by
  induction as generalizing t with
  | nil => rfl
  | cons a as ih =>
    rw [AnimationSet.advance_cons, tickCalls, GraphData.resume_append, ← advance_singleton_snd]
    exact ih _

theorem tickCalls_append (dt : Double) (xs ys : List (Animation (Pulse ⊕ ε)))
    (t : Tracked GraphData) :
    m.tickCalls dt (xs ++ ys) t
      = m.tickCalls dt xs t ++ m.tickCalls dt ys (resume t (m.tickCalls dt xs t)) := by
  induction xs generalizing t with
  | nil => rfl
  | cons a xs ih =>
    rw [List.cons_append, tickCalls, tickCalls, ih, List.append_assoc, GraphData.resume_append]

end Mutators

/-! ## Plays -/

/-- A graph with its animations. -/
structure Stage (ε : Type) where
  graph : Tracked GraphData
  effects : AnimationSet (Pulse ⊕ ε) := {}

/-- Something that happens on a stage. -/
inductive Cue (ε : Type)
  | call (c : Call)
  | pulse (slot : Nat) (duration : Double)
  | add (duration : Double) (e : ε)
  | cancel (id : Nat)
  | tick (dt : Double)

namespace Stage

/-- The stage after a cue; no pulse starts where no node is. -/
def step (m : Mutators ε) (s : Stage ε) : Cue ε → Stage ε
  | .call c => { s with graph := c.edit.after s.graph }
  | .pulse slot duration =>
    match Pulse.of? s.graph.value slot duration with
    | some p => { s with effects := (s.effects.add duration (.inl p)).2 }
    | none => s
  | .add duration e => { s with effects := (s.effects.add duration (.inr e)).2 }
  | .cancel id => { s with effects := (s.effects.cancel id).2 }
  | .tick dt =>
    let (effects, graph) := s.effects.tick m.ensemble s.graph dt
    { graph, effects }

/-- The calls that a cue makes. -/
def calls (m : Mutators ε) (s : Stage ε) : Cue ε → List Call
  | .call c => [c]
  | .tick dt => m.tickCalls dt s.effects.running s.graph
  | _ => []

/-- The stage after some cues. -/
def play (m : Mutators ε) (s : Stage ε) (cues : List (Cue ε)) : Stage ε := cues.foldl (step m) s

/-- The calls that are made in a play. -/
def log (m : Mutators ε) (s : Stage ε) : List (Cue ε) → List Call
  | [] => []
  | q :: cues => s.calls m q ++ (s.step m q).log m cues

variable (m : Mutators ε) (s : Stage ε)

/-- What a cue does to the graph are calls. -/
theorem graph_step (q : Cue ε) : (s.step m q).graph = resume s.graph (s.calls m q) := by
  cases q with
  | pulse slot duration =>
    unfold step
    dsimp only
    split
    · rfl
    · rfl
  | tick dt => exact m.advance_snd dt s.effects.running s.graph
  | _ => rfl

/-- The graph of a play is the first one after all calls of its log. -/
theorem graph_play (cues : List (Cue ε)) : (s.play m cues).graph = resume s.graph (s.log m cues) := by
  induction cues generalizing s with
  | nil => rfl
  | cons q cues ih =>
    rw [log, GraphData.resume_append, ← graph_step]
    exact ih (s.step m q)

/-- A play in two parts has a log in two parts. -/
theorem log_append (cues more : List (Cue ε)) :
    s.log m (cues ++ more) = s.log m cues ++ (s.play m cues).log m more := by
  induction cues generalizing s with
  | nil => rfl
  | cons q cues ih =>
    rw [List.cons_append, log, log, ih, List.append_assoc]
    rfl

end Stage

end LiveGraph
