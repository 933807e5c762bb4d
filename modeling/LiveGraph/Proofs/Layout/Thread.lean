import LiveGraph.Proofs.Graph.System
import LiveGraph.Proofs.Layout.Relaxation
import LiveGraph.Proofs.Lock.Task

/-!
# A layout among other users

A layout is one user of a shared graph. It asks for the section of its task, relaxes, flushes and yields
in turns, and ends the task; between any two of its steps the other users and the consumer move as they
like. A list of turns is one interleaving of the layout with all of them.
-/

namespace LiveGraph

/-- The system after a user's edit, with what the edit answers, if the user may edit. -/
def System.perform? {α : Type} (s : System) (i : Nat) (act : GraphEdit α) :
    Option (Except (Failure GraphError) α × System) :=
  if s.outgoing ≠ [] then none
  else
    let (outcome, value, events) := act.perform s.lock.value
    (s.lock.step? (.update i fun _ => value)).map fun lock =>
      (outcome, { s with lock, outgoing := events.toList })

namespace Layout

/-- A layout that a user is to make. -/
structure Job where
  user : Nat
  params : LayoutParams
  iterations : Nat

/-- How far a layout has come. -/
inductive Progress
  /-- It has not begun. -/
  | ready
  /-- It asks for the section of its task. -/
  | asking
  /-- It is about to relax the graph, and then `left` times more. -/
  | relaxing (left : Nat) (report : LayoutReport)
  /-- It has relaxed the graph and is about to flush. -/
  | flushing (left : Nat) (report : LayoutReport)
  /-- It has flushed, and is about to yield once all changes are published. -/
  | publishing (left : Nat) (report : LayoutReport)
  /-- It yields. -/
  | yielding (left : Nat) (report : LayoutReport)
  /-- It is about to end its task. -/
  | closing (result : Except (Failure GraphError) LayoutReport)
  /-- It ends its task. -/
  | ending (result : Except (Failure GraphError) LayoutReport)
  /-- It has told that its task has ended. -/
  | leaving (result : Except (Failure GraphError) LayoutReport)
  | returned (result : Except (Failure GraphError) LayoutReport)

namespace Progress

/-- The head of the loop. -/
def loop : Nat → LayoutReport → Progress
  | 0, report => closing (.ok report)
  | left + 1, report => relaxing left report

/-- The move of the lock that is next, if one is. -/
def move? (user : Nat) : Progress → Option (LockMove GraphData)
  | ready => some (.call user (.long taskName))
  | asking | yielding _ _ | ending _ | leaving _ => some (.proceed user)
  | publishing _ _ => some (.yield user)
  | closing _ => some (.release user)
  | relaxing _ _ | flushing _ _ | returned _ => none

/-- How far the layout is after a move of the lock, which leaves the user in a phase and may have given
it an answer. -/
def next (iterations : Nat) : Progress → Phase → Answer → Progress
  | ready, _, _ => asking
  | asking, .inside _, _ => loop iterations {}
  | asking, .idle, .refused e => returned (.error (.error e))
  | publishing left report, _, _ => yielding left report
  | yielding left report, .inside _, .yielded goesOn =>
    if goesOn then loop left report else closing (.ok { report with cancelled := true })
  | closing result, _, _ => ending result
  | ending result, .leaving, _ => leaving result
  | leaving result, .idle, _ => returned result
  | progress, _, _ => progress

/-- How far the layout is after a relaxation. -/
def relaxed (left : Nat) (report : LayoutReport) : Except (Failure GraphError) Single → Progress
  | .ok displacement =>
    flushing left { report with iterations := report.iterations + 1, displacement }
  | .error e => closing (.error e)

/-- How far the layout is after a flush. -/
def flushed (left : Nat) (report : LayoutReport) : Except (Failure GraphError) Unit → Progress
  | .ok _ => publishing left report
  | .error e => closing (.error e)

end Progress

/-- A layout at work in a system. -/
structure Thread where
  system : System
  progress : Progress := .ready
  /-- What the layout has published, oldest first. -/
  log : List Event := []

/-- Whose turn it is. -/
inductive Turn
  /-- The layout takes its next step. -/
  | own
  /-- Another user moves, or the consumer. -/
  | other (mv : System.Move)

namespace Thread

/-- The thread after a step of the layout; what the step added to the channel goes into the log. -/
def advance (t : Thread) (system : System) (progress : Progress) : Thread where
  system := system
  progress := progress
  log := t.log ++ system.channel.queued.drop t.system.channel.queued.length

/-- The thread after the next step of the layout, if it can take one. -/
def own? (job : Job) (t : Thread) : Option Thread :=
  if t.system.lock.owner = some job.user ∧ t.system.outgoing ≠ [] then
    (t.system.step? .publish).map (t.advance · t.progress)
  else
    match t.progress with
    | .relaxing left report =>
      (t.system.perform? job.user (relax job.params)).map fun (outcome, system) =>
        t.advance system (.relaxed left report outcome)
    | .flushing left report =>
      (t.system.perform? job.user GraphData.flush).map fun (outcome, system) =>
        t.advance system (.flushed left report outcome)
    | progress => do
      let mv ← progress.move? job.user
      let system ← t.system.step? (.lock mv)
      return t.advance system
        (progress.next job.iterations (system.lock.phase job.user) (system.lock.answer job.user))

/-- The move is one of another user, or of the consumer. -/
def isForeign (job : Job) (t : Thread) : System.Move → Bool
  | .lock mv => mv.agent? ≠ some job.user
  | .edit i _ => i ≠ job.user
  | .publish => t.system.lock.owner ≠ some job.user
  | .receive => true

/-- The thread after a turn, if it can be taken. -/
def step? (job : Job) (t : Thread) : Turn → Option Thread
  | .own => t.own? job
  | .other mv =>
    if t.isForeign job mv then (t.system.step? mv).map fun system => { t with system } else none

/-- The thread after some turns, if they can all be taken. -/
def run (job : Job) (t : Thread) (turns : List Turn) : Option Thread := turns.foldlM (step? job) t

/-! ## The steps of the layout -/

/-- A step that sends nothing leaves the log alone. -/
theorem log_advance_same {t : Thread} {system : System} (h : system.channel = t.system.channel)
    (progress : Progress) : (t.advance system progress).log = t.log := by
  rw [advance, h, List.drop_length, List.append_nil]

/-- An event that is sent is logged. -/
theorem log_advance_emit {t : Thread} (hc : t.system.Coherent) {system : System} {e : Event}
    (h : system.channel = t.system.channel.emit e) (progress : Progress) :
    (t.advance system progress).log = t.log ++ [e] := by
  obtain ⟨waiting, -, hchannel, -⟩ := hc.replica
  rw [advance, h, hchannel, Channel.emit_holding, Channel.queued_holding, Channel.queued_holding,
    List.drop_left]

end Thread

end Layout

namespace System

/-- An edit that answers is performed in a section that allows it, once nothing is left to publish. -/
theorem perform?_of_ok {α : Type} {s s' : System} {i : Nat} {act : GraphEdit α} {a : α}
    {value : GraphData} {events : Array Event}
    (hact : act ⟨s.lock.value, #[]⟩ = .ok a ⟨value, events⟩)
    {outcome : Except (Failure GraphError) α} (h : s.perform? i act = some (outcome, s')) :
    s.outgoing = [] ∧ outcome = .ok a ∧
      s.lock.step? (.update i fun _ => value) = some { s.lock with value } ∧
      s' = { s with lock := { s.lock with value }, outgoing := events.toList } := by
  rw [perform?, Edit.perform_of_ok hact] at h
  split at h
  · cases h
  · next hout =>
    obtain ⟨lock, hlock, heq⟩ := Option.map_eq_some_iff.1 h
    cases heq
    obtain ⟨-, -, -, hlock'⟩ := LockMachine.step_update hlock
    rw [hlock'] at hlock ⊢
    exact ⟨Decidable.not_not.1 hout, rfl, hlock, rfl⟩

/-- A user in the section of a long task can edit the graph once nothing is left to publish. -/
theorem perform?_isSome {α : Type} {s : System} {i : Nat} {task : String} (act : GraphEdit α)
    (hp : s.lock.phase i = .inside (.long task)) (hout : s.outgoing = []) :
    (s.perform? i act).isSome = true := by
  rw [perform?, if_neg (by simp [hout]), Option.isSome_map, LockMachine.step?, hp]
  rfl

/-- A step of the lock without news sends nothing. -/
theorem relock_same {s : System} {m : LockMachine GraphData} (h : m.told = s.lock.told) :
    s.relock m = { s with lock := m } := by
  rw [relock, h, List.drop_eq_nil_of_le (Nat.le_of_eq Array.length_toList)]
  rfl

/-- News of the lock are sent at once. -/
theorem relock_push {s : System} {m : LockMachine GraphData} {x : Option String}
    (h : m.told = s.lock.told.push x) :
    s.relock m = { s with lock := m, channel := s.channel.emit (.task x) } := by
  rw [relock, h, Array.toList_push, ← Array.length_toList, List.drop_left]
  rfl

end System

namespace Layout

theorem Progress.of_move? {progress : Progress} {user : Nat} {mv : LockMove GraphData}
    (h : progress.move? user = some mv) :
    mv.fails = false ∧ mv.updates = false ∧ mv.agent? = some user := by
  cases progress <;> cases h <;> exact ⟨rfl, rfl, rfl⟩

namespace Thread

/-- A step of the layout that is a move of the lock. -/
theorem own?_eq {job : Job} {t : Thread} {progress : Progress} {mv : LockMove GraphData}
    (hp : t.progress = progress) (hmv : progress.move? job.user = some mv)
    (hfree : t.system.lock.owner = some job.user → t.system.outgoing = []) :
    t.own? job = (t.system.lock.step? mv).map fun m => t.advance (t.system.relock m)
      (progress.next job.iterations (m.phase job.user) (m.answer job.user)) := by
  obtain ⟨hfails, hupdates, hagent⟩ := Progress.of_move? hmv
  have hbusy : ¬ (t.system.lock.owner = some job.user ∧ t.system.outgoing ≠ []) :=
    fun ⟨howner, hout⟩ => hout (hfree howner)
  have hsystem : t.system.step? (.lock mv) = (t.system.lock.step? mv).map t.system.relock := by
    -- the move neither fails nor updates, and the user has sent its events
    refine if_neg ?_
    rw [hfails, hupdates, hagent]
    rintro (hfalse | hfalse | ⟨hout, howner⟩)
    · cases hfalse
    · cases hfalse
    · exact hbusy ⟨howner.symm, hout⟩
  have hown : t.own? job = (progress.move? job.user).bind fun mv =>
      (t.system.step? (.lock mv)).bind fun system => some (t.advance system
        (progress.next job.iterations (system.lock.phase job.user)
          (system.lock.answer job.user))) := by
    -- the phases that have no move of the lock are the two of an iteration
    rw [own?, if_neg hbusy, hp]
    cases progress with
    | relaxing left report => cases hmv
    | flushing left report => cases hmv
    | _ => rfl
  rw [hown, hmv, Option.bind_some, hsystem]
  cases t.system.lock.step? mv <;> rfl

/-- A step of the thread is a step of the lock, and what the thread makes of the answer. -/
theorem own?_of_move {job : Job} {t t' : Thread} {progress : Progress} {mv : LockMove GraphData}
    (hp : t.progress = progress) (hmv : progress.move? job.user = some mv)
    (hfree : t.system.lock.owner = some job.user → t.system.outgoing = [])
    (h : t.own? job = some t') :
    ∃ m, t.system.lock.step? mv = some m ∧ t' = t.advance (t.system.relock m)
      (progress.next job.iterations (m.phase job.user) (m.answer job.user)) := by
  rw [own?_eq hp hmv hfree] at h
  obtain ⟨m, hm, rfl⟩ := Option.map_eq_some_iff.1 h
  exact ⟨m, hm, rfl⟩

end Thread

end Layout

end LiveGraph
