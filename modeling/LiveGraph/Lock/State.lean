import LiveGraph.Error
import LiveGraph.Text.Quoted

/-!
# The state of a task lock

A task lock guards one value. Its holders are short sections, which read or write and leave, and at
most one long task: a named computation that keeps the value to itself over many steps and can be
asked to stop. This module holds what the lock knows, and the transitions that its users make.
-/

namespace LiveGraph

/-- What a holder of the lock may do. -/
inductive Section
  | read
  | write
  /-- The long task of a name. -/
  | long (task : String)
deriving DecidableEq, Repr

/-- The section lets its holder change the value. -/
def Section.canWrite : Section → Bool
  | read => false
  | _ => true

/-- The task of a section that is one. -/
def Section.task? : Section → Option String
  | long task => some task
  | _ => none

/-- What a lock knows about its users. -/
structure LockState where
  /-- The long task that runs. -/
  task : Option String := none
  /-- The long task was asked to stop. -/
  cancelled : Bool := false
  /-- Users that wait for the value. -/
  waiters : Nat := 0
deriving DecidableEq, Repr, Inhabited

namespace LockState

/-- Writers and long tasks are turned away while a long task runs. -/
def permit (s : LockState) (resource : String) : Except GraphError Unit :=
  match s.task with
  | some task => .error (.busy resource (some task))
  | none => .ok ()

/-- A long task starts; requests to stop an earlier one are forgotten. -/
def start (s : LockState) (task : String) : LockState :=
  { s with task := some task, cancelled := false }

/-- The long task ends. -/
def finish (s : LockState) : LockState := { s with task := none, cancelled := false }

/-- Asks the long task to stop; answers whether there is one. -/
def cancel (s : LockState) : Bool × LockState := (s.task.isSome, { s with cancelled := true })

end LockState

/-- What a lock shows. -/
inductive LockStatus
  | idle
  | held
  | running (task : String) (cancelRequested : Bool)
deriving DecidableEq, Repr

namespace LockStatus

/-- What a lock shows that is held or not. -/
def of (s : LockState) (held : Bool) : LockStatus :=
  match s.task with
  | some task => running task s.cancelled
  | none => if held then .held else idle

/-- The status as it stands in messages. -/
def describe : LockStatus → String
  | idle => "Idle"
  | held => "Held"
  | running task c =>
    s!"LongTaskRunning \x7b name: {Text.quoted task}, cancel_requested: {c} \x7d"

/-- The lock of a name as it stands in messages. -/
def describeLock (name : String) (status : LockStatus) : String :=
  s!"TaskLock \x7b name: {Text.quoted name}, status: {status.describe}, .. \x7d"

end LockStatus

end LiveGraph
