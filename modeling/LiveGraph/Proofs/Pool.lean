import LiveGraph.Pool.Machine

/-!
# Every task is run once

The steps of a pool come in any order in which each of them can be taken. `Moved` says once what a step
does, and `Orderly` what holds between any two steps: the launched tasks are those taken and then those
queued, a taken task has ended or is being run, a worker is gone only if the pool is closed and nothing is
queued, and whenever there is something to do, some worker is up or is about to be woken.
-/

namespace LiveGraph

variable {τ : Type}

namespace Worker

/-- The task that a worker runs. -/
def task? : Worker τ → Option τ
  | running task => some task
  | _ => none

/-- The worker is neither asleep nor gone. -/
def isUp : Worker τ → Bool
  | seeking | running _ => true
  | asleep | exited => false

theorem isUp_iff (w : Worker τ) : w.isUp = true ↔ w ≠ .asleep ∧ w ≠ .exited := by
  cases w <;> simp [isUp]

end Worker

namespace PoolStep

/-- The task that a step launches. -/
def task? : PoolStep τ → Option τ
  | launch task => some task
  | _ => none

/-- The step, with how a task ends forgotten. -/
def unmarked : PoolStep τ → PoolStep τ
  | finish worker _ => finish worker .finished
  | step => step

end PoolStep

namespace WorkerPool

/-! ## Runs -/

/-- The pool after the given steps, if each of them can be taken in its turn. -/
def follow (p : WorkerPool τ) (steps : List (PoolStep τ)) : Option (WorkerPool τ) :=
  steps.foldlM step? p

/-- The tasks that are launched, in order. -/
def launched (steps : List (PoolStep τ)) : List τ := steps.filterMap PoolStep.task?

/-- The tasks that are being run, in the order of their workers. -/
def running (p : WorkerPool τ) : List τ := p.workers.toList.filterMap Worker.task?

/-- The tasks that ended, in the order in which they did. -/
def endedTasks (p : WorkerPool τ) : List τ := p.ended.toList.map (·.1)

/-- The pool, with how its tasks ended forgotten. -/
def unmarked (p : WorkerPool τ) : WorkerPool τ :=
  { p with ended := p.ended.map fun e => (e.1, .finished) }

/-- A run goes on from where its first step leads. -/
theorem follow_cons {p p' : WorkerPool τ} {s : PoolStep τ} {steps : List (PoolStep τ)} :
    p.follow (s :: steps) = some p' ↔ ∃ p₁, p.step? s = some p₁ ∧ p₁.follow steps = some p' := by
  unfold follow
  rw [List.foldlM_cons]
  exact Option.bind_eq_some_iff

/-! ## Workers -/

/-- A move changes one worker. -/
theorem worker?_move {p : WorkerPool τ} {i : Nat} {w : Worker τ} (h : p.worker? i = some w)
    (w' : Worker τ) (j : Nat) : (p.move i w').worker? j = if j = i then some w' else p.worker? j := by
  have hi : i < p.workers.size := (Array.getElem?_eq_some_iff.1 h).1
  unfold worker? move
  rw [Array.getElem?_setIfInBounds]
  by_cases hj : j = i
  · simp [hj, hi]
  · simp [hj, Ne.symm hj]

/-- What holds of all workers, and of the new state of one of them, holds once it has moved. -/
theorem forall_move {P : Worker τ → Prop} {p : WorkerPool τ} {i : Nat} {w w' : Worker τ}
    (hw : p.worker? i = some w) (hnew : P w') (h : ∀ j v, p.worker? j = some v → P v) :
    ∀ j v, (p.move i w').worker? j = some v → P v := by
  intro j v hv
  rw [worker?_move hw] at hv
  split at hv
  · cases hv
    exact hnew
  · exact h j v hv

/-- The worker that moves takes its task with it, and all others keep theirs. -/
theorem running_move {p : WorkerPool τ} {i : Nat} {w : Worker τ} (h : p.worker? i = some w)
    (w' : Worker τ) :
    (w.task?.toList ++ (p.move i w').running).Perm (w'.task?.toList ++ p.running) := by
  obtain ⟨hi, hget⟩ := Array.getElem?_eq_some_iff.1 h
  have hlength : i < p.workers.toList.length := by simpa using hi
  obtain ⟨before, after, hold, -, hnew⟩ := @List.exists_of_set _ i w' _ hlength
  have hmoved : (p.move i w').workers.toList = before ++ w' :: after := by
    rw [← hnew]
    unfold move
    exact Array.toList_setIfInBounds
  have hworker : p.workers.toList[i] = w := by simpa using hget
  have hsplit : ∀ v : Worker τ, (before ++ v :: after).filterMap Worker.task?
      = before.filterMap Worker.task? ++ (v.task?.toList ++ after.filterMap Worker.task?) := by
    intro v
    cases hv : v.task? <;> simp [hv]
  unfold running
  rw [hmoved, hold, hworker, hsplit, hsplit]
  -- either task can be pulled in front of those of the workers before this one
  exact (List.perm_append_comm_assoc _ _ _).trans
    (((List.perm_append_comm_assoc _ _ _).append_left _).trans (List.perm_append_comm_assoc _ _ _))

/-- With one worker, what it runs is all that is being run. -/
theorem running_of_single {p : WorkerPool τ} (hsize : p.workers.size = 1) {i : Nat} {w : Worker τ}
    (h : p.worker? i = some w) : p.running = w.task?.toList := by
  have hi : i < p.workers.size := (Array.getElem?_eq_some_iff.1 h).1
  have hzero : i = 0 := by omega
  have hlist : p.workers.toList = [w] := by
    apply List.ext_getElem?
    intro j
    have hj : p.workers.toList[j]? = p.worker? j := by simp [worker?]
    rw [hj]
    by_cases hj0 : j = 0
    · rw [hj0, ← hzero, h, hzero]
      rfl
    · have hout : p.worker? j = none := Array.getElem?_eq_none (by omega)
      rw [hout]
      symm
      simp
      omega
  unfold running
  rw [hlist]
  cases hw : w.task? <;> simp [hw]

/-! ## What a step does -/

/-- A step makes this pool of another one. -/
inductive Moved (p : WorkerPool τ) : PoolStep τ → WorkerPool τ → Prop
  | launch {task : τ} (hopen : p.closed = false) :
      Moved p (.launch task) { p with queue := p.queue ++ [task], dueWakes := p.dueWakes + 1 }
  /-- A launch wakes somebody. -/
  | wakeOne {i : Nat} (hw : p.worker? i = some .asleep) :
      Moved p (.wakeOne (some i)) { p.move i .seeking with dueWakes := p.dueWakes - 1 }
  /-- A launch finds nobody to wake. -/
  | wakeNobody (hawake : ∀ i w, p.worker? i = some w → w ≠ .asleep) :
      Moved p (.wakeOne none) { p with dueWakes := p.dueWakes - 1 }
  | take {i : Nat} {task : τ} {queue : List τ} (hw : p.worker? i = some .seeking)
      (hqueue : p.queue = task :: queue) :
      Moved p (.look i)
        { p.move i (.running task) with queue := queue, taken := p.taken.push task }
  | sleep {i : Nat} (hw : p.worker? i = some .seeking) (hqueue : p.queue = [])
      (hopen : p.closed = false) : Moved p (.look i) (p.move i .asleep)
  | exit {i : Nat} (hw : p.worker? i = some .seeking) (hqueue : p.queue = [])
      (hclosed : p.closed = true) : Moved p (.look i) (p.move i .exited)
  | finish {i : Nat} {task : τ} {how : Ending} (hw : p.worker? i = some (.running task)) :
      Moved p (.finish i how) { p.move i .seeking with ended := p.ended.push (task, how) }
  | close (hopen : p.closed = false) :
      Moved p .close { p with closed := true, dueWakeAll := true }
  | wakeAll : Moved p .wakeAll { p with workers := p.workers.map woken, dueWakeAll := false }

theorem any_isAsleep {p : WorkerPool τ} (h : p.workers.any isAsleep = false) {i : Nat} {w : Worker τ}
    (hw : p.worker? i = some w) : w ≠ .asleep := by
  rw [Array.any_eq_false'] at h
  rintro rfl
  exact h _ (Array.mem_of_getElem? hw) rfl

/-- What a step of a pool can do; the other lemmas look at this list and not at the steps. -/
theorem step_moved {p p' : WorkerPool τ} {s : PoolStep τ} (h : p.step? s = some p') : Moved p s p' := by
  cases s with
  | launch task =>
    simp only [step?] at h
    split at h
    · cases h
    · next hopen =>
      cases h
      exact .launch (Bool.not_eq_true _ ▸ hopen)
  | wakeOne worker =>
    cases worker with
    | none =>
      simp only [step?] at h
      split at h
      · next hwake =>
        cases h
        exact .wakeNobody fun i w hw => any_isAsleep (by simpa using hwake.2) hw
      · cases h
    | some i =>
      simp only [step?] at h
      split at h
      · next d hdue hw =>
        cases h
        have hd : d = p.dueWakes - 1 := by omega
        rw [hd]
        exact .wakeOne hw
      · cases h
  | look i =>
    simp only [step?] at h
    split at h
    · next hw =>
      cases h
      unfold look
      split
      · next task queue hqueue => exact .take hw hqueue
      · next hqueue =>
        cases hclosed : p.closed with
        | false => exact .sleep hw hqueue hclosed
        | true => exact .exit hw hqueue hclosed
    · cases h
  | finish i how =>
    simp only [step?] at h
    split at h
    · next task hw =>
      cases h
      exact .finish hw
    · cases h
  | close =>
    simp only [step?] at h
    split at h
    · cases h
    · next hopen =>
      cases h
      exact .close (Bool.not_eq_true _ ▸ hopen)
  | wakeAll =>
    simp only [step?] at h
    split at h
    · cases h
      exact .wakeAll
    · cases h

/-! ## What holds between the steps -/

/-- The tasks and the workers of a pool that `tasks` were launched on. -/
structure Orderly (tasks : List τ) (p : WorkerPool τ) : Prop where
  /-- Tasks are taken in the order in which they were launched. -/
  queued : tasks = p.taken.toList ++ p.queue
  /-- A task that was taken has ended or is being run. -/
  taken : p.taken.toList.Perm (p.endedTasks ++ p.running)
  /-- One worker runs one task after the other. -/
  inTurn : p.workers.size = 1 → p.taken.toList = p.endedTasks ++ p.running
  /-- A worker is gone only if there is nothing left to do. -/
  exited : ∀ i, p.worker? i = some .exited → p.closed = true ∧ p.queue = []
  /-- In a closed pool, nobody sleeps on. -/
  roused : p.closed = true → p.dueWakeAll = true ∨ ∀ i w, p.worker? i = some w → w ≠ .asleep
  /-- What is queued is waited for by a worker that is up or is about to be woken. -/
  attended : p.queue ≠ [] → 0 < p.dueWakes ∨ p.dueWakeAll = true ∨
    ∃ i w, p.worker? i = some w ∧ w.isUp = true

theorem running_new (n : Nat) : (new n : WorkerPool τ).running = [] := by
  unfold running new
  rw [List.filterMap_eq_nil_iff]
  intro w hw
  have hseeking : n ≠ 0 ∧ w = .seeking := by simpa using hw
  rw [hseeking.2]
  rfl

/-- A new pool is in order. -/
theorem orderly_new (n : Nat) : Orderly [] (new n : WorkerPool τ) := by
  have hseeking : ∀ i w, (new n : WorkerPool τ).worker? i = some w → w = .seeking := by
    intro i w hw
    have hmem : n ≠ 0 ∧ w = .seeking := by simpa [new] using Array.mem_of_getElem? hw
    exact hmem.2
  refine ⟨rfl, ?_, fun _ => ?_, fun i hi => ?_, fun hclosed => ?_, fun hqueue => ?_⟩
  · rw [running_new]
    exact .rfl
  · rw [running_new]
    rfl
  · cases hseeking i _ hi
  · cases hclosed
  · exact absurd rfl hqueue

section

open scoped List

variable {tasks : List τ} {p p' : WorkerPool τ} {s : PoolStep τ}

theorem Moved.size_eq (hm : Moved p s p') : p'.workers.size = p.workers.size := by
  cases hm <;> simp [move]

theorem worker?_wakeAll (p : WorkerPool τ) (i : Nat) :
    ({ p with workers := p.workers.map woken, dueWakeAll := false } : WorkerPool τ).worker? i
      = (p.worker? i).map woken := by
  simp [worker?]

theorem running_wakeAll (p : WorkerPool τ) :
    ({ p with workers := p.workers.map woken, dueWakeAll := false } : WorkerPool τ).running
      = p.running := by
  unfold running
  rw [Array.toList_map, List.filterMap_map]
  congr 1
  funext w
  cases w <;> rfl

/-- Tasks are taken from the queue in the order in which they were launched. -/
theorem Moved.queued (hm : Moved p s p') (h : tasks = p.taken.toList ++ p.queue) :
    tasks ++ s.task?.toList = p'.taken.toList ++ p'.queue := by
  cases hm with
  | take hw hqueue => simp [h, hqueue, PoolStep.task?]
  | _ => simp [h, PoolStep.task?, move]

/-- A task that is taken is being run, and one that is no longer being run has ended. -/
theorem Moved.taken (hm : Moved p s p') (h : p.taken.toList.Perm (p.endedTasks ++ p.running)) :
    p'.taken.toList.Perm (p'.endedTasks ++ p'.running) := by
  cases hm with
  | launch | wakeNobody | close => exact h
  | wakeOne hw => exact h.trans ((running_move hw .seeking).symm.append_left _)
  | sleep hw => exact h.trans ((running_move hw .asleep).symm.append_left _)
  | exit hw => exact h.trans ((running_move hw .exited).symm.append_left _)
  | @take i task queue hw _ =>
    have hrunning : (p.move i (.running task)).running.Perm (task :: p.running) :=
      running_move hw (.running task)
    have htaken : (p.taken.push task).toList = p.taken.toList ++ [task] := Array.toList_push
    show (p.taken.push task).toList.Perm (p.endedTasks ++ (p.move i (.running task)).running)
    calc (p.taken.push task).toList
      _ = p.taken.toList ++ [task] := htaken
      _ ~ p.endedTasks ++ p.running ++ [task] := h.append_right [task]
      _ = p.endedTasks ++ (p.running ++ [task]) := List.append_assoc _ _ _
      _ ~ p.endedTasks ++ task :: p.running := (List.perm_append_singleton _ _).append_left _
      _ ~ p.endedTasks ++ (p.move i (.running task)).running := hrunning.symm.append_left _
  | @finish i task how hw =>
    have hrunning : (task :: (p.move i .seeking).running).Perm p.running := running_move hw .seeking
    have hended : ({ p.move i .seeking with ended := p.ended.push (task, how) } :
        WorkerPool τ).endedTasks = p.endedTasks ++ [task] := by
      simp [endedTasks]
    rw [hended, List.append_assoc]
    exact h.trans (hrunning.symm.append_left _)
  | wakeAll =>
    rw [running_wakeAll]
    exact h

/-- One worker ends the task it runs before it takes the next one. -/
theorem Moved.inTurn (hm : Moved p s p') (hsize : p.workers.size = 1)
    (h : p.taken.toList = p.endedTasks ++ p.running) :
    p'.taken.toList = p'.endedTasks ++ p'.running := by
  have hsize' : p'.workers.size = 1 := hm.size_eq.trans hsize
  -- before and after a worker moves, what it runs is all that is being run
  have hmove : ∀ {i w} (w' : Worker τ), p.worker? i = some w → p'.workers = (p.move i w').workers →
      p.running = w.task?.toList ∧ p'.running = w'.task?.toList := by
    intro i w w' hw hworkers
    have hw' : p'.worker? i = some w' := by
      unfold worker?
      rw [hworkers]
      exact (worker?_move hw w' i).trans (if_pos rfl)
    exact ⟨running_of_single hsize hw, running_of_single hsize' hw'⟩
  cases hm with
  | launch | wakeNobody | close => exact h
  | wakeOne hw =>
    obtain ⟨hold, hnew⟩ := hmove .seeking hw rfl
    rw [hnew]
    rw [hold] at h
    exact h
  | sleep hw =>
    obtain ⟨hold, hnew⟩ := hmove .asleep hw rfl
    rw [hnew]
    rw [hold] at h
    exact h
  | exit hw =>
    obtain ⟨hold, hnew⟩ := hmove .exited hw rfl
    rw [hnew]
    rw [hold] at h
    exact h
  | @take i task queue hw _ =>
    obtain ⟨hold, hnew⟩ := hmove (.running task) hw rfl
    have hidle : p.taken.toList = p.endedTasks := by simpa [hold, Worker.task?] using h
    rw [hnew]
    simp [hidle, Worker.task?, endedTasks, move]
  | @finish i task how hw =>
    obtain ⟨hold, hnew⟩ := hmove .seeking hw rfl
    rw [hnew]
    rw [hold] at h
    simp [h, Worker.task?, endedTasks, move]
  | wakeAll =>
    rw [running_wakeAll]
    exact h

/-- A worker leaves only when the pool is closed and nothing waits. -/
theorem Moved.exited (hm : Moved p s p')
    (h : ∀ i, p.worker? i = some .exited → p.closed = true ∧ p.queue = []) {i : Nat}
    (hi : p'.worker? i = some .exited) : p'.closed = true ∧ p'.queue = [] := by
  -- other moves do not make a worker leave
  have hgone : ∀ {j w w'}, p.worker? j = some w → w' ≠ .exited →
      (p.move j w').worker? i = some .exited → p.worker? i = some .exited := by
    intro j w w' hw hne hmoved
    rw [worker?_move hw] at hmoved
    split at hmoved
    · cases hmoved
      exact absurd rfl hne
    · exact hmoved
  cases hm with
  | launch hopen =>
    -- nobody is gone while the pool is open
    have hclosed := (h i hi).1
    rw [hopen] at hclosed
    cases hclosed
  | wakeOne hw => exact h i (hgone hw (by simp) hi)
  | wakeNobody => exact h i hi
  | take hw hqueue =>
    have hempty := (h i (hgone hw (by simp) hi)).2
    rw [hqueue] at hempty
    cases hempty
  | sleep hw => exact h i (hgone hw (by simp) hi)
  | exit hw hqueue hclosed => exact ⟨hclosed, hqueue⟩
  | finish hw => exact h i (hgone hw (by simp) hi)
  | close => exact ⟨rfl, (h i hi).2⟩
  | wakeAll =>
    rw [worker?_wakeAll] at hi
    obtain ⟨w, hw, hwoken⟩ := Option.map_eq_some_iff.1 hi
    cases w with
    | exited => exact h i hw
    | _ => cases hwoken

/-- Nobody falls asleep in a closed pool, and closing wakes all who slept before. -/
theorem Moved.roused (hm : Moved p s p')
    (h : p.closed = true → p.dueWakeAll = true ∨ ∀ i w, p.worker? i = some w → w ≠ .asleep)
    (hclosed : p'.closed = true) :
    p'.dueWakeAll = true ∨ ∀ i w, p'.worker? i = some w → w ≠ .asleep := by
  cases hm with
  | launch hopen => exact h hclosed
  | wakeOne hw => exact (h hclosed).imp_right (forall_move hw (by simp))
  | wakeNobody => exact h hclosed
  | take hw => exact (h hclosed).imp_right (forall_move hw (by simp))
  -- no worker goes to sleep in a closed pool
  | sleep hw _ hopen =>
    have hstill : p.closed = true := hclosed
    rw [hopen] at hstill
    cases hstill
  | exit hw => exact (h hclosed).imp_right (forall_move hw (by simp))
  | finish hw => exact (h hclosed).imp_right (forall_move hw (by simp))
  | close => exact .inl rfl
  | wakeAll =>
    refine .inr fun i w hw => ?_
    rw [worker?_wakeAll] at hw
    obtain ⟨v, -, rfl⟩ := Option.map_eq_some_iff.1 hw
    cases v <;> simp [woken]

/-- Where nobody sleeps and something is queued, somebody is up. -/
theorem exists_isUp (hpos : 0 < p.workers.size) (hawake : ∀ i w, p.worker? i = some w → w ≠ .asleep)
    (hexited : ∀ i, p.worker? i = some .exited → p.closed = true ∧ p.queue = [])
    (hqueue : p.queue ≠ []) : ∃ i w, p.worker? i = some w ∧ w.isUp = true := by
  have hfirst : p.worker? 0 = some p.workers[0] := Array.getElem?_eq_getElem hpos
  refine ⟨0, _, hfirst, (Worker.isUp_iff _).2 ⟨hawake 0 _ hfirst, fun hgone => ?_⟩⟩
  rw [hgone] at hfirst
  exact hqueue (hexited 0 hfirst).2

/-- As long as tasks wait, a worker is up or is about to be woken. -/
theorem Moved.attended (hm : Moved p s p') (hpos : 0 < p.workers.size)
    (hexited : ∀ i, p'.worker? i = some .exited → p'.closed = true ∧ p'.queue = [])
    (hqueue : p'.queue ≠ []) :
    0 < p'.dueWakes ∨ p'.dueWakeAll = true ∨ ∃ i w, p'.worker? i = some w ∧ w.isUp = true := by
  have hpos' : 0 < p'.workers.size := hm.size_eq ▸ hpos
  -- a worker that has just moved to where it is up
  have hmoved : ∀ {i w} (w' : Worker τ), p.worker? i = some w → w'.isUp = true →
      ∃ j v, (p.move i w').worker? j = some v ∧ v.isUp = true :=
    fun w' hw hup => ⟨_, w', (worker?_move hw w' _).trans (if_pos rfl), hup⟩
  cases hm with
  | launch => exact .inl (Nat.succ_pos _)
  | wakeOne hw => exact .inr (.inr (hmoved .seeking hw rfl))
  | wakeNobody hawake => exact .inr (.inr (exists_isUp hpos' hawake hexited hqueue))
  | take hw => exact .inr (.inr (hmoved _ hw rfl))
  | sleep _ hempty => exact absurd hempty hqueue
  | exit _ hempty => exact absurd hempty hqueue
  | finish hw => exact .inr (.inr (hmoved .seeking hw rfl))
  | close => exact .inr (.inl rfl)
  | wakeAll =>
    refine .inr (.inr (exists_isUp hpos' (fun i w hw => ?_) hexited hqueue))
    rw [worker?_wakeAll] at hw
    obtain ⟨v, -, rfl⟩ := Option.map_eq_some_iff.1 hw
    cases v <;> simp [woken]

/-- Every step keeps a pool in order. -/
theorem Orderly.step (h : Orderly tasks p) (hpos : 0 < p.workers.size) (hm : Moved p s p') :
    Orderly (tasks ++ s.task?.toList) p' where
  queued := hm.queued h.queued
  taken := hm.taken h.taken
  inTurn hsize := hm.inTurn (hm.size_eq ▸ hsize) (h.inTurn (hm.size_eq ▸ hsize))
  exited _ hi := hm.exited h.exited hi
  roused hclosed := hm.roused h.roused hclosed
  attended hqueue := hm.attended hpos (fun _ hi => hm.exited h.exited hi) hqueue

/-- Every run keeps a pool orderly. -/
theorem Orderly.follow (h : Orderly tasks p) (hpos : 0 < p.workers.size) {steps : List (PoolStep τ)}
    (hrun : p.follow steps = some p') :
    Orderly (tasks ++ launched steps) p' ∧ p'.workers.size = p.workers.size := by
  induction steps generalizing tasks p with
  | nil =>
    cases hrun
    unfold launched
    rw [List.filterMap_nil, List.append_nil]
    exact ⟨h, rfl⟩
  | cons s steps ih =>
    obtain ⟨p₁, hs, hrest⟩ := follow_cons.1 hrun
    have hm := step_moved hs
    obtain ⟨horderly, hsize⟩ := ih (h.step hpos hm) (hm.size_eq ▸ hpos) hrest
    have hlaunched : launched (s :: steps) = s.task?.toList ++ launched steps := by
      cases hs : s.task? <;> simp [launched, hs]
    rw [hlaunched, ← List.append_assoc]
    exact ⟨horderly, hsize.trans hm.size_eq⟩

end

/-! ## How tasks end -/

/-- How a task ends makes no difference to the steps of a pool. -/
theorem unmarked_step (p : WorkerPool τ) (s : PoolStep τ) :
    (p.step? s).map unmarked = p.unmarked.step? s.unmarked := by
  obtain ⟨workers, queue, closed, dueWakes, dueWakeAll, taken, ended⟩ := p
  cases s with
  | launch task => cases closed <;> rfl
  | wakeOne worker =>
    cases worker with
    | none =>
      show Option.map unmarked (if 0 < dueWakes ∧ !workers.any isAsleep then _ else none)
        = if 0 < dueWakes ∧ !workers.any isAsleep then _ else none
      split <;> rfl
    | some i =>
      dsimp only [step?, worker?, unmarked, PoolStep.unmarked]
      cases workers[i]? with
      | none => cases dueWakes <;> rfl
      | some w => cases dueWakes <;> cases w <;> rfl
  | look i =>
    dsimp only [step?, worker?, unmarked, PoolStep.unmarked]
    cases workers[i]? with
    | none => rfl
    | some w => cases w <;> cases queue <;> rfl
  | finish i how =>
    dsimp only [step?, worker?, unmarked, PoolStep.unmarked]
    cases workers[i]? with
    | none => rfl
    | some w =>
      cases w with
      | running task => simp [unmarked, move]
      | _ => rfl
  | close => cases closed <;> rfl
  | wakeAll => cases dueWakeAll <;> rfl

/-- A run goes the same way however its tasks end. -/
theorem unmarked_follow (p : WorkerPool τ) (steps : List (PoolStep τ)) :
    (p.follow steps).map unmarked = p.unmarked.follow (steps.map PoolStep.unmarked) := by
  induction steps generalizing p with
  | nil => rfl
  | cons s steps ih =>
    unfold follow at ih ⊢
    rw [List.map_cons, List.foldlM_cons, List.foldlM_cons, ← unmarked_step]
    cases p.step? s with
    | none => rfl
    | some p₁ => exact ih p₁

/-! ## Every task is run once -/

/-- There is something to do and somebody left to do it, but all who are left sleep, and nobody is about
to be woken. -/
structure Stuck (p : WorkerPool τ) : Prop where
  due : p.queue ≠ [] ∨ p.closed = true
  left : ∃ i w, p.worker? i = some w ∧ w ≠ .exited
  asleep : ∀ i w, p.worker? i = some w → w ≠ .exited → w = .asleep
  noWake : p.dueWakes = 0
  noWakeAll : p.dueWakeAll = false

/-- A pool in order has no waiting tasks that nobody will take. -/
theorem Orderly.not_stuck {tasks : List τ} {p : WorkerPool τ} (h : Orderly tasks p) : ¬ p.Stuck := by
  intro hstuck
  rcases hstuck.due with hqueue | hclosed
  · rcases h.attended hqueue with hwake | hwakeAll | ⟨i, w, hw, hup⟩
    · have := hstuck.noWake
      omega
    · rw [hstuck.noWakeAll] at hwakeAll
      cases hwakeAll
    · obtain ⟨hawake, hleft⟩ := (Worker.isUp_iff w).1 hup
      exact hawake (hstuck.asleep i w hw hleft)
  · obtain ⟨i, w, hw, hleft⟩ := hstuck.left
    rcases h.roused hclosed with hwakeAll | hawake
    · rw [hstuck.noWakeAll] at hwakeAll
      cases hwakeAll
    · exact hawake i w hw (hstuck.asleep i w hw hleft)

/-- When all workers are gone, nothing is being run. -/
theorem running_of_exited {p : WorkerPool τ}
    (h : ∀ i, i < p.workers.size → p.worker? i = some .exited) : p.running = [] := by
  unfold running
  rw [List.filterMap_eq_nil_iff]
  intro w hw
  obtain ⟨i, hi, rfl⟩ := List.mem_iff_getElem.1 hw
  have hsize : i < p.workers.size := by simpa using hi
  have hexited := h i hsize
  unfold worker? at hexited
  rw [Array.getElem?_eq_getElem hsize, Option.some_inj] at hexited
  rw [Array.getElem_toList, hexited]
  rfl

/-- In every run of a pool with workers, tasks are taken in the order in which they are launched, each once,
and those taken have ended or are being run. A worker is gone only if the pool is closed and nothing is
queued; when all are gone, every launched task has ended, once. How tasks end makes no difference to
anything else. One worker runs the tasks in the order of their launch. No run gets stuck. -/
theorem tasks_run_once {n : Nat} (hn : 0 < n) {steps : List (PoolStep τ)} {p : WorkerPool τ}
    (hrun : (new n).follow steps = some p) :
    launched steps = p.taken.toList ++ p.queue ∧
    p.taken.toList.Perm (p.endedTasks ++ p.running) ∧
    (∀ i, p.worker? i = some .exited → p.closed = true ∧ p.queue = []) ∧
    ((∀ i, i < n → p.worker? i = some .exited) → p.endedTasks.Perm (launched steps)) ∧
    (∀ steps' : List (PoolStep τ), steps'.map PoolStep.unmarked = steps.map PoolStep.unmarked →
      ∃ p', (new n).follow steps' = some p' ∧ p'.unmarked = p.unmarked) ∧
    (n = 1 → launched steps = p.endedTasks ++ p.running ++ p.queue) ∧
    ¬ p.Stuck := by
  have hsize : (new n : WorkerPool τ).workers.size = n := Array.size_replicate
  obtain ⟨h, hsize'⟩ := (orderly_new n).follow (by omega) hrun
  rw [List.nil_append] at h
  rw [hsize] at hsize'
  refine ⟨h.queued, h.taken, h.exited, fun hgone => ?_, fun steps' hsteps => ?_, fun hone => ?_,
    h.not_stuck⟩
  -- all workers are gone, so nothing is being run and nothing waits
  · have hnone := running_of_exited (hsize' ▸ hgone)
    have hempty := (h.exited 0 (hgone 0 hn)).2
    have htaken := h.taken
    rw [hnone, List.append_nil] at htaken
    rw [h.queued, hempty, List.append_nil]
    exact htaken.symm
  · have hblind := unmarked_follow (new n) steps
    rw [hrun, ← hsteps, ← unmarked_follow] at hblind
    obtain ⟨p', hp', heq⟩ := Option.map_eq_some_iff.1 hblind.symm
    exact ⟨p', hp', heq⟩
  · rw [← h.inTurn (hsize'.trans hone)]
    exact h.queued

/-- Two workers and three tasks, of which the first aborts; the pool is closed while one worker sleeps and
the other is at work. -/
def firstAborts : List (PoolStep Nat) :=
  [.look 0, .launch 10, .look 1, .launch 11, .wakeOne (some 0), .look 0, .launch 12, .wakeOne none,
   .finish 1 .aborted, .look 1, .finish 0 .finished, .look 0, .close, .wakeAll, .look 0,
   .finish 1 .finished, .look 1, .wakeOne none]

theorem tasks_run_once_first_aborts : ∃ p, (new 2).follow firstAborts = some p ∧
    (∀ i, i < 2 → p.worker? i = some .exited) ∧ p.endedTasks.Perm (launched firstAborts) := by
  have hrun : (new 2).follow firstAborts = some {
      workers := #[.exited, .exited]
      closed := true
      taken := #[10, 11, 12]
      ended := #[(10, .aborted), (11, .finished), (12, .finished)] } := by cbv
  have hgone : ∀ i, i < 2 → (#[.exited, .exited] : Array (Worker Nat))[i]? = some .exited := by decide
  exact ⟨_, hrun, hgone, (tasks_run_once (by decide) hrun).2.2.2.1 hgone⟩

end WorkerPool

end LiveGraph
