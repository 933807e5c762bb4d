import LiveGraph.Fault
import LiveGraph.Size

/-!
# Worker pools

Workers take tasks off one queue and run them. The pool is a machine whose steps are the atomic ones
of its threads: a launch first queues a task and later wakes a sleeping worker; a worker that looks
at the queue takes a task, goes to sleep, or leaves when the pool is closed and the queue empty;
closing first sets a mark and later wakes everyone. A task finishes or aborts, and either way its
worker goes on.
-/

namespace LiveGraph

/-- Where a worker is. -/
inductive Worker (τ : Type)
  /-- About to look at the queue. -/
  | seeking
  /-- Running a task. -/
  | running (task : τ)
  /-- Asleep until it is woken. -/
  | asleep
  /-- Gone. -/
  | exited
deriving DecidableEq, Repr, Inhabited

/-- How a task ends. -/
inductive Ending
  | finished
  | aborted
deriving DecidableEq, Repr, Inhabited

/-- A pool of workers for tasks `τ`. -/
structure WorkerPool (τ : Type) where
  workers : Array (Worker τ)
  /-- The tasks not yet taken, oldest first. -/
  queue : List τ := []
  /-- No more tasks are launched. -/
  closed : Bool := false
  /-- Launches whose task is queued and who have yet to wake a worker. -/
  dueWakes : Nat := 0
  /-- The pool was closed and has yet to wake all workers. -/
  dueWakeAll : Bool := false
  /-- The tasks taken so far, oldest first. -/
  taken : Array τ := #[]
  /-- The tasks that ended so far, and how, oldest first. -/
  ended : Array (τ × Ending) := #[]
deriving Repr

/-- An atomic step of a pool. -/
inductive PoolStep (τ : Type)
  /-- A launch queues its task. -/
  | launch (task : τ)
  /-- A launch wakes one sleeping worker, or nobody if nobody sleeps. -/
  | wakeOne (worker : Option Nat)
  /-- A worker looks at the queue. -/
  | look (worker : Nat)
  /-- A worker's task ends. -/
  | finish (worker : Nat) (how : Ending)
  /-- The pool is closed. -/
  | close
  /-- Closing wakes all workers. -/
  | wakeAll
deriving DecidableEq, Repr

namespace WorkerPool

variable {τ : Type}

/-- A pool of `n` workers that have not yet looked at the queue. -/
def new (n : Nat) : WorkerPool τ := { workers := Array.replicate n .seeking }

/-- Bytes in the handle of a worker. -/
def handleWidth : Nat := 24

/-- Whether a pool can have `n` workers; their handles are kept in one array. -/
def admits (n : Nat) : Bool := fitsArray n handleWidth

/-- A new pool of `n` workers; more than a pool can have are a fault. -/
def start (n : Nat) : Except Fault (WorkerPool τ) :=
  if admits n then .ok (new n) else .error .overflow

/-- The worker with a number. -/
def worker? (p : WorkerPool τ) (i : Nat) : Option (Worker τ) := p.workers[i]?

/-- The pool with a worker moved. -/
def move (p : WorkerPool τ) (i : Nat) (w : Worker τ) : WorkerPool τ :=
  { p with workers := p.workers.setIfInBounds i w }

/-- A worker that sleeps no longer does. -/
def woken : Worker τ → Worker τ
  | .asleep => .seeking
  | w => w

/-- Whether the worker sleeps. -/
def isAsleep : Worker τ → Bool
  | .asleep => true
  | _ => false

/-- What a worker does when it looks at the queue. -/
def look (p : WorkerPool τ) (i : Nat) : WorkerPool τ :=
  match p.queue with
  | task :: queue => { p.move i (.running task) with queue, taken := p.taken.push task }
  | [] => p.move i (if p.closed then .exited else .asleep)

/-- The pool after a step, if the step can be taken. -/
def step? (p : WorkerPool τ) : PoolStep τ → Option (WorkerPool τ)
  | .launch task =>
    if p.closed then none
    else some { p with queue := p.queue ++ [task], dueWakes := p.dueWakes + 1 }
  | .wakeOne (some i) =>
    match p.dueWakes, p.worker? i with
    | d + 1, some .asleep => some { p.move i .seeking with dueWakes := d }
    | _, _ => none
  | .wakeOne none =>
    if 0 < p.dueWakes ∧ !p.workers.any isAsleep then some { p with dueWakes := p.dueWakes - 1 }
    else none
  | .look i =>
    match p.worker? i with
    | some .seeking => some (p.look i)
    | _ => none
  | .finish i how =>
    match p.worker? i with
    | some (.running task) => some { p.move i .seeking with ended := p.ended.push (task, how) }
    | _ => none
  | .close => if p.closed then none else some { p with closed := true, dueWakeAll := true }
  | .wakeAll =>
    if p.dueWakeAll then some { p with workers := p.workers.map woken, dueWakeAll := false }
    else none

/-- Tasks launched and not yet taken. -/
def pending (p : WorkerPool τ) : Nat := p.queue.length

/-- The pool as it stands in messages. -/
def describe (p : WorkerPool τ) : String :=
  s!"Pool \x7b workers: {p.workers.size}, pending: {p.pending} \x7d"

/-! ## Running -/

/-- The pool after the given steps; a step that cannot be taken is passed over. -/
def run (p : WorkerPool τ) (steps : List (PoolStep τ)) : WorkerPool τ :=
  steps.foldl (fun p s => (p.step? s).getD p) p

/-- Launches tasks, one after the other, while all workers are at work. -/
def launchAll (p : WorkerPool τ) (tasks : List τ) : WorkerPool τ :=
  p.run (tasks.flatMap fun t => [.launch t, .wakeOne none])

/-- The steps in which the first worker works off tasks that end as told. -/
def workOff (ending : τ → Ending) (tasks : List τ) : List (PoolStep τ) :=
  tasks.flatMap fun t => [.look 0, .finish 0 (ending t)]

/-- Closes the pool and lets the workers leave, once what is queued is worked off. -/
def shutDown (p : WorkerPool τ) (ending : τ → Ending) : WorkerPool τ :=
  let p := p.run (workOff ending p.queue)
  p.run (.close :: .wakeAll :: (List.range p.workers.size).map .look)

/-- Every worker takes one of the given tasks and holds on to it. -/
def occupy (p : WorkerPool τ) (task : τ) : WorkerPool τ :=
  p.run ((List.range p.workers.size).flatMap fun i => [.launch task, .wakeOne none, .look i])

/-- Every worker finishes the task it holds. -/
def vacate (p : WorkerPool τ) : WorkerPool τ :=
  p.run ((List.range p.workers.size).map (.finish · .finished))

end WorkerPool

end LiveGraph
