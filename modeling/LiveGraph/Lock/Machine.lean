import LiveGraph.Lock.State

/-!
# The task lock as a machine

Many users may call a lock at the same time. This module gives every call as the atomic steps it is
made of: one look at the lock's state, one try at the value, one notification. A user between two
steps is in a phase. The machine takes one step of one user at a time, in any order, so a list of
moves is one interleaving of all users.

The value has one owner at a time. A user that finds it owned counts itself as a waiter, waits until
it is free, takes it, and only then takes itself off the count. A long task that yields gives the
value up, sleeps until no waiters are left, and takes it back.
-/

namespace LiveGraph

/-- What a user asks for. -/
inductive Request
  | read
  | write
  /-- The section of a long task, waiting for short sections to end. -/
  | long (task : String)
  /-- The section of a long task, without waiting. -/
  | tryLong (task : String)
deriving DecidableEq, Repr

/-- Where a user is in the code of the lock. -/
inductive Phase
  /-- In no call, and holding nothing. -/
  | idle
  /-- About to look whether a long task runs. -/
  | checking (r : Request)
  /-- About to try the value. -/
  | trying (r : Request)
  /-- Found the value owned; about to count itself as a waiter. -/
  | announcing (r : Request)
  /-- Counted, and waiting for the value. -/
  | waiting (r : Request)
  /-- Owns the value; about to take itself off the count. -/
  | granted (r : Request)
  /-- Owns the value; about to look once more, or to register its task. -/
  | entering (r : Request)
  /-- Owns the value and has registered its task; about to tell the observers. -/
  | starting (task : String)
  /-- Holds a section. -/
  | inside (s : Section)
  /-- Owns the value and was turned away; about to give it up. -/
  | rejected (e : GraphError)
  /-- Yields; about to give the value up. -/
  | yielding (task : String)
  /-- Has given the value up; about to look for waiters. -/
  | draining (task : String)
  /-- Asleep until no waiters are left. -/
  | sleeping (task : String)
  /-- About to take the value back. -/
  | returning (task : String)
  /-- Owns the value again; about to look whether it was asked to stop. -/
  | judging (task : String)
  /-- Ends its task; about to take it off the state. -/
  | ending (task : String)
  /-- Has taken its task off the state; about to tell the observers. -/
  | telling (task : String)
  /-- About to give the value up for good. -/
  | leaving
deriving DecidableEq, Repr

namespace Phase

/-- The user owns the value. -/
def owns : Phase → Bool
  | granted _ | entering _ | starting _ | inside _ | rejected _ | yielding _ | judging _
  | ending _ | telling _ | leaving => true
  | _ => false

/-- The user is counted as a waiter. -/
def isCounted : Phase → Bool
  | waiting _ | granted _ => true
  | _ => false

/-- A sleeping user looks for waiters again when it is woken. -/
def woken : Phase → Phase
  | sleeping task => draining task
  | p => p

end Phase

/-- How the last call of a user ended. -/
inductive Answer
  /-- It has not ended, or answers nothing. -/
  | none
  /-- It was turned away. -/
  | refused (e : GraphError)
  /-- It yielded; whether the task may go on. -/
  | yielded (goesOn : Bool)
  /-- It was broken off by an observer that gave up. -/
  | aborted
deriving DecidableEq, Repr

/-- A user of the lock. -/
structure Agent where
  phase : Phase := .idle
  answer : Answer := .none
deriving DecidableEq, Repr, Inhabited

/-- A lock over a value of type `α` with its users. -/
structure LockMachine (α : Type) where
  /-- The name of the locked resource. -/
  name : String
  value : α
  state : LockState := {}
  /-- The user that owns the value. -/
  owner : Option Nat := none
  agents : Array Agent := #[]
  /-- What the observers were told: the task that runs from then on. -/
  told : Array (Option String) := #[]

/-- One move of a user. -/
inductive LockMove (α : Type)
  /-- A new user appears. -/
  | join
  /-- A user makes a request. -/
  | call (agent : Nat) (r : Request)
  /-- A user changes the value. -/
  | update (agent : Nat) (f : α → α)
  /-- Somebody asks the long task to stop. -/
  | cancel
  /-- The long task yields. -/
  | yield (agent : Nat)
  /-- A user leaves its section. -/
  | release (agent : Nat)
  /-- A user takes the next step of its call. -/
  | proceed (agent : Nat)
  /-- An observer gives up while a user tells it about a task. -/
  | fail (agent : Nat)

namespace LockMachine

variable {α : Type}

/-- The phase of a user. -/
def phase (m : LockMachine α) (i : Nat) : Phase :=
  match m.agents[i]? with
  | some a => a.phase
  | none => .idle

/-- The answer to a user's last call. -/
def answer (m : LockMachine α) (i : Nat) : Answer :=
  match m.agents[i]? with
  | some a => a.answer
  | none => .none

/-- The machine with a user in another phase. -/
def move (m : LockMachine α) (i : Nat) (p : Phase) (answer : Answer := .none) : LockMachine α :=
  { m with agents := m.agents.setIfInBounds i ⟨p, answer⟩ }

/-- The machine with all sleeping users woken. -/
def wake (m : LockMachine α) : LockMachine α :=
  { m with agents := m.agents.map fun a => { a with phase := a.phase.woken } }

/-- Turns a user away that owns nothing. -/
def refuse (m : LockMachine α) (i : Nat) (task : Option String) : LockMachine α :=
  m.move i .idle (.refused (.busy m.name task))

/-- A user that owns the value enters its section, if no long task forbids it. -/
def enter (m : LockMachine α) (i : Nat) : Request → LockMachine α
  | .read => m.move i (.inside .read)
  | .write =>
    match m.state.permit m.name with
    | .ok _ => m.move i (.inside .write)
    | .error e => m.move i (.rejected e)
  | .long task | .tryLong task =>
    match m.state.permit m.name with
    | .ok _ => { m.move i (.starting task) with state := m.state.start task }
    | .error e => m.move i (.rejected e)

/-- A waiter that got the value is no longer counted; the last one wakes who waits for that. -/
def uncount (m : LockMachine α) : LockMachine α :=
  let waiters := m.state.waiters - 1
  let m := { m with state := { m.state with waiters } }
  if waiters = 0 then m.wake else m

/-- The machine after the next step of a user's call; a user that must wait has none. -/
def proceed? (m : LockMachine α) (i : Nat) : Option (LockMachine α) :=
  match m.phase i with
  | .idle | .inside _ | .sleeping _ => none
  | .checking r =>
    match m.state.task with
    | some task => some (m.refuse i (some task))
    | none => some (m.move i (.trying r))
  | .trying r =>
    match m.owner, r with
    | none, _ => some { m.move i (.entering r) with owner := some i }
    | some _, .tryLong _ => some (m.refuse i none)
    | some _, _ => some (m.move i (.announcing r))
  | .announcing r =>
    some { m.move i (.waiting r) with
      state := { m.state with waiters := m.state.waiters + 1 } }
  | .waiting r =>
    match m.owner with
    | none => some { m.move i (.granted r) with owner := some i }
    | some _ => none
  | .granted r => some (m.uncount.move i (.entering r))
  | .entering r => some (m.enter i r)
  | .starting task => some { m.move i (.inside (.long task)) with told := m.told.push (some task) }
  | .rejected e => some { m.move i .idle (.refused e) with owner := none }
  | .yielding task => some { m.move i (.draining task) with owner := none }
  | .draining task =>
    some (m.move i (if m.state.waiters = 0 then .returning task else .sleeping task))
  | .returning task =>
    match m.owner with
    | none => some { m.move i (.judging task) with owner := some i }
    | some _ => none
  | .judging task => some (m.move i (.inside (.long task)) (.yielded !m.state.cancelled))
  | .ending task => some { m.move i (.telling task) with state := m.state.finish }
  | .telling _ => some { m.move i .leaving with told := m.told.push none }
  | .leaving => some { m.move i .idle with owner := none }

/-- The first phase of a request: only readers do not look for a long task first. -/
def opening : Request → Phase
  | .read => .trying .read
  | r => .checking r

/-- The machine after a move, if the move can be made. -/
def step? (m : LockMachine α) : LockMove α → Option (LockMachine α)
  | .join => some { m with agents := m.agents.push {} }
  | .call i r =>
    match m.agents[i]? with
    | some ⟨.idle, _⟩ => some (m.move i (opening r))
    | _ => none
  | .update i f =>
    match m.phase i with
    | .inside s => if s.canWrite then some { m with value := f m.value } else none
    | _ => none
  | .cancel => some { m with state := m.state.cancel.2 }
  | .yield i =>
    match m.phase i with
    | .inside (.long task) => some (m.move i (.yielding task))
    | _ => none
  | .release i =>
    match m.phase i with
    | .inside (.long task) => some (m.move i (.ending task))
    | .inside _ => some (m.move i .leaving)
    | _ => none
  | .proceed i => m.proceed? i
  | .fail i =>
    match m.phase i with
    | .starting _ | .telling _ => some { m.move i .idle .aborted with owner := none }
    | _ => none

/-- What a checkpoint answers the user of a long task once its yield has returned: the task goes on,
or fails because it was asked to stop. -/
def checkpoint? (m : LockMachine α) (i : Nat) : Option (Except GraphError Unit) :=
  match m.phase i, m.answer i with
  | .inside (.long task), .yielded goesOn =>
    some (if goesOn then .ok () else .error (.cancelled task))
  | _, _ => none

/-- What the lock shows. -/
def status (m : LockMachine α) : LockStatus := .of m.state m.owner.isSome

end LockMachine

end LiveGraph
