import LiveGraph.Lock.Machine
import LiveGraph.Session.Trouble

/-!
# Sessions with a lock

A session holds at most one section of a lock over a number. It can start threads, each with one job
on the same lock. Threads run by a fixed rule: whoever can go on does; a value that becomes free
goes to the first waiter, and to a yielding task only when nobody waits.
-/

namespace LiveGraph

/-- What a thread does with the lock. -/
inductive LockJob
  /-- Reads the number. -/
  | read
  /-- Adds to the number. -/
  | write (amount : Int64)
  /-- A long task that adds to the number, and again after each of its yields. -/
  | long (task : String) (amount : Int64) (yields : Nat)
deriving DecidableEq, Repr

namespace LockJob

/-- The request that the job starts with. -/
def request : LockJob → Request
  | read => .read
  | write _ => .write
  | long task _ _ => .long task

/-- What the job adds. -/
def amount : LockJob → Int64
  | read => 0
  | write n | long _ n _ => n

/-- How often the job yields. -/
def yields : LockJob → Nat
  | long _ _ n => n
  | _ => 0

end LockJob

/-- A thread at its job. -/
structure LockThread where
  /-- The user of the lock that the thread is. -/
  agent : Nat
  job : LockJob
  /-- Additions still to be made. -/
  additions : Nat
  /-- It yields, and waits for the answer. -/
  yielding : Bool := false
  /-- What came of the job. -/
  result : Option (Except GraphError Int64) := none

/-- A session with a lock over a number. -/
structure LockSession where
  machine : LockMachine Int64
  /-- The section that the session holds. -/
  held : Option Section := none
  /-- The threads whose results were not yet asked for, oldest first. -/
  threads : List LockThread := []

namespace LockSession

/-- The session itself, as a user of the lock. -/
def main : Nat := 0

/-- The session as a user that makes a call while it holds a section. -/
def second : Nat := 1

/-- A session with a fresh lock. -/
def new (name : String) : LockSession :=
  { machine := { name, value := 0, agents := #[{}, {}] } }

/-- The session after a move of its lock. -/
def move (s : LockSession) (m : LockMove Int64) : LockSession :=
  match s.machine.step? m with
  | some machine => { s with machine }
  | none => s

/-- The session with one of its threads replaced. -/
def setThread (s : LockSession) (t : LockThread) : LockSession :=
  { s with threads := s.threads.map fun u => if u.agent = t.agent then t else u }

/-! ## Running the threads -/

/-- A thread ends its job and leaves its section. -/
def endJob (s : LockSession) (t : LockThread) (r : Except GraphError Int64) : LockSession :=
  (s.move (.release t.agent)).setThread { t with result := some r, yielding := false }

/-- What a thread does next that holds a section. -/
def work (s : LockSession) (t : LockThread) : LockSession :=
  match t.yielding, s.machine.checkpoint? t.agent with
  | true, some (.error e) => s.endJob t (.error e)
  | _, _ =>
    match t.additions with
    | 0 => s.endJob t (.ok s.machine.value)
    | n + 1 =>
      let s := s.move (.update t.agent (· + t.job.amount))
      if n = 0 then s.endJob t (.ok s.machine.value)
      else (s.move (.yield t.agent)).setThread { t with additions := n, yielding := true }

/-- The session after a thread that is not in a call went on, if it could. -/
def workOf? (s : LockSession) (t : LockThread) : Option LockSession :=
  match t.result, s.machine.phase t.agent, s.machine.answer t.agent with
  | none, .inside _, _ => some (s.work t)
  | none, .idle, .refused e => some (s.setThread { t with result := some (.error e) })
  | _, _, _ => none

/-- The user has to wait for the value. -/
def contends : Phase → Bool
  | .waiting _ | .returning _ => true
  | _ => false

/-- The session after the next step of the first user that has one, among those in the given
phases. -/
def proceedAmong? (s : LockSession) (among : Phase → Bool) : Option LockSession :=
  (List.range s.machine.agents.size).findSome? fun i =>
    if among (s.machine.phase i) then
      (s.machine.proceed? i).map fun machine => { s with machine }
    else none

/-- The session after the next step of anybody. -/
def advance? (s : LockSession) : Option LockSession :=
  s.proceedAmong? (!contends ·) <|>
  s.threads.findSome? s.workOf? <|>
  s.proceedAmong? (· matches .waiting _) <|>
  s.proceedAmong? contends

/-- The session after at most so many steps. -/
def settleWithin : Nat → LockSession → LockSession
  | 0, s => s
  | n + 1, s =>
    match s.advance? with
    | some s => settleWithin n s
    | none => s

/-- The session when nobody can go on. No call takes more than a dozen steps. -/
def settle (s : LockSession) : LockSession :=
  settleWithin (s.threads.foldl (fun steps t => steps + 24 * (t.job.yields + 2)) 48) s

/-! ## Steps -/

/-- Makes a request as one of the session's two users, which must not have to wait. -/
def call (agent : Nat) (r : Request) : SessionM LockSession Section := do
  modify fun s => (s.move (.call agent r)).settle
  let s ← get
  match s.machine.phase agent, s.machine.answer agent with
  | .inside sec, _ => return sec
  | _, .refused e => throw (.graph e)
  | _, _ => SessionM.refuse .wouldBlock

/-- Whether a request would wait for the section that the session holds. -/
def blocks : Option Section → Request → Bool
  | some (.long _), .read => true
  | some (.long _), _ => false
  | some _, .tryLong _ => false
  | some _, _ => true
  | none, _ => false

/-- Makes a request; what is granted becomes the held section. -/
def enter (r : Request) : SessionM LockSession Unit := do
  let held := (← get).held
  if blocks held r then SessionM.refuse .wouldBlock
  else if held.isSome then
    let _ ← call second r
  else
    let sec ← call main r
    modify ({ · with held := some sec })

/-- Leaves the held section. -/
def leave : SessionM LockSession Unit :=
  modify fun s => ({ s with held := none }.move (.release main)).settle

/-- Works in the held section, or in one of its own for the time of the work. -/
def within {α : Type} (r : Request) (act : SessionM LockSession α) : SessionM LockSession α := do
  if (← get).held.isSome then act
  else
    enter r
    let a ← act
    leave
    return a

/-- The number. -/
def number : SessionM LockSession Int64 :=
  within .read do return (← get).machine.value

/-- Assigns the number in the held section. -/
def assign (n : Int64) : SessionM LockSession Unit := do
  match (← get).held with
  | some sec =>
    if sec.canWrite then modify (·.move (.update main fun _ => n)) else SessionM.refuse .notHeld
  | none => SessionM.refuse .notHeld

/-- Assigns the number in a section of its own, and answers it, or the error that is given. -/
def withWrite (n : Int64) (failure : Option String) : SessionM LockSession Int64 := do
  enter .write
  assign n
  leave
  match failure with
  | some text => throw (.graph (.other text))
  | none => return n

/-- Yields as the long task that the session holds; answers its name and whether it may go on. -/
def yield : SessionM LockSession (String × Bool) := do
  match (← get).held with
  | some (.long task) =>
    modify fun s => (s.move (.yield main)).settle
    return (task, (← get).machine.answer main == .yielded true)
  | _ => SessionM.refuse .notHeld

/-- Yields, and fails if the task was asked to stop. -/
def checkpoint : SessionM LockSession Unit := do
  let _ ← yield
  if let some (.error e) := (← get).machine.checkpoint? main then throw (.graph e)

/-- Asks the long task to stop; answers whether there is one. -/
def cancel : SessionM LockSession Bool := do
  let running := (← get).machine.state.cancel.1
  modify (·.move .cancel)
  return running

/-- Starts a thread. -/
def spawn (job : LockJob) : SessionM LockSession Unit :=
  modify fun s =>
    let agent := s.machine.agents.size
    let additions := match job with
      | .read => 0
      | .write _ => 1
      | .long _ _ yields => yields + 1
    let thread : LockThread := { agent, job, additions }
    let s := { s with threads := s.threads ++ [thread] }
    ((s.move .join).move (.call agent job.request)).settle

/-- Leaves the held section if there is one, and answers the results of the threads. -/
def release : SessionM LockSession (List (Except GraphError Int64)) := do
  leave
  let threads := (← get).threads
  modify ({ · with threads := [] })
  return threads.filterMap (·.result)

/-- What the observers were told since the last time. -/
def takeTold (s : LockSession) : Array (Option String) × LockSession :=
  (s.machine.told, { s with machine := { s.machine with told := #[] } })

end LockSession

end LiveGraph
