import LiveGraph.Pool.Machine

/-!
# Pools at work

A pool is given tasks and shut down. The tasks append numbers to one list; some abort instead. With
a gate, all workers are kept busy until the tasks are queued.
-/

namespace LiveGraph

/-- What a task does. -/
inductive PoolTask
  /-- Appends a number. -/
  | append (n : Int64)
  /-- Aborts. -/
  | abort
  /-- Waits until the gate opens. -/
  | wait
deriving DecidableEq, Repr

/-- How the task ends. -/
def PoolTask.ending : PoolTask → Ending
  | abort => .aborted
  | append _ | wait => .finished

/-- What is seen of a pool at work. -/
structure PoolReport where
  /-- The pool when the tasks were queued, if they had to wait. -/
  queued : Option (WorkerPool PoolTask)
  /-- The numbers in the order in which they were appended. -/
  done : List Int64

/-- Runs tasks on `n` workers, behind a gate or not. -/
def runPool (n : Nat) (gate : Bool) (tasks : List PoolTask) : Except Fault PoolReport := do
  let start ← WorkerPool.start n
  let queued := (if gate then start.occupy .wait else start).launchAll tasks
  let final := (if gate then queued.vacate else queued).shutDown PoolTask.ending
  return {
    queued := if gate then some queued else none
    done := final.ended.toList.filterMap fun
      | (.append n, .finished) => some n
      | _ => none }

end LiveGraph
