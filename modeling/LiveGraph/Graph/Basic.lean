import LiveGraph.Graph.Data
import LiveGraph.Lock.State

/-!
# Graphs

A graph is graph data behind a task lock, with one channel on which all its events go out: what the
stores publish, and which task runs. Observers hear an event at once and may ask the running task to
stop; a receiver attached to the channel gets the events in order whenever it looks.

What is around a graph is a parameter: how observers react, and what others do while a task yields.
-/

namespace LiveGraph

/-- Graph data behind a lock, with a channel. -/
structure Graph where
  /-- The name of the locked resource. -/
  name : String
  data : GraphData
  lock : LockState := {}
  /-- The observers of the channel. -/
  observers : Nat := 0
  /-- The events that the attached receiver has not yet taken, oldest first. -/
  outbox : Option (Array Event) := none

/-- What is around a graph, with a state of its own. -/
structure Surroundings (ω : Type) where
  /-- An event is heard; answers whether the running task is asked to stop. -/
  hear : Event → ω → Bool × ω
  /-- A task yields to others; answers whether they ask it to stop. -/
  pause : ω → Bool × ω

/-- A graph in its surroundings. -/
structure World (ω : Type) where
  graph : Graph
  around : ω

/-- An action in a world; one that fails keeps what it changed. -/
abbrev WorldM (ω α : Type) := EStateM (Failure GraphError) (World ω) α

namespace Graph

/-- The empty graph of a configuration. -/
def new (config : GraphConfig) : Except (Failure GraphError) Graph :=
  match config.validate with
  | .error e => .error (.error (.ofConfig e))
  | .ok _ =>
    match GraphData.new config with
    | .ok data => .ok { name := config.lockName, data }
    | .error f => .error (.fault f)

/-- Asks the running task to stop; answers whether there is one. -/
def cancel (g : Graph) : Bool × Graph :=
  let (running, lock) := g.lock.cancel
  (running, { g with lock })

/-- Attaches a receiver to the channel, which must not have one. -/
def attach (g : Graph) : Except EmitterError Graph :=
  if g.outbox.isSome then .error .sinkTaken else .ok { g with outbox := some #[] }

/-- Takes the events that wait for the receiver, if there is one. -/
def drain (g : Graph) : Option (Array Event) × Graph :=
  (g.outbox, { g with outbox := g.outbox.map fun _ => #[] })

/-- The graph as it stands in messages. -/
def describe (g : Graph) (status : LockStatus) : String :=
  s!"Graph \x7b lock: {LockStatus.describeLock g.name status}, events: Emitter \x7b observers: " ++
    s!"{g.observers}, has_sink: {g.outbox.isSome} \x7d \x7d"

end Graph

namespace World

variable {ω α : Type}

/-- An event goes out: observers hear it, then it waits for the receiver. -/
def deliver (env : Surroundings ω) (w : World ω) (e : Event) : World ω :=
  let ⟨graph, around⟩ := w
  let (asked, around) := env.hear e around
  let graph := if asked then graph.cancel.2 else graph
  { graph := { graph with outbox := graph.outbox.map (·.push e) }, around }

/-- Edits the data; the events go out. -/
def edit (env : Surroundings ω) (act : GraphEdit α) : WorldM ω α :=
  fun ⟨⟨name, data, lock, observers, outbox⟩, around⟩ =>
    let (outcome, data, events) := act.perform data
    let w := events.foldl (deliver env) ⟨⟨name, data, lock, observers, outbox⟩, around⟩
    match outcome with
    | .ok a => .ok a w
    | .error e => .error e w

/-- Edits the data in a short section of its own; fails while a long task runs. -/
def write (env : Surroundings ω) (act : GraphEdit α) : WorldM ω α := do
  let g := (← get).graph
  match g.lock.permit g.name with
  | .error e => throw (.error e)
  | .ok _ => edit env act

/-- Starts a long task, unless one runs. -/
def startTask (env : Surroundings ω) (task : String) : WorldM ω Unit := do
  let g := (← get).graph
  match g.lock.permit g.name with
  | .error e => throw (.error e)
  | .ok _ =>
    modify fun w =>
      deliver env { w with graph := { w.graph with lock := w.graph.lock.start task } }
        (.task (some task))

/-- Ends the long task. -/
def endTask (env : Surroundings ω) : WorldM ω Unit :=
  modify fun w =>
    deliver env { w with graph := { w.graph with lock := w.graph.lock.finish } } (.task none)

/-- Works as a long task, which ends also when the work fails. -/
def duringTask (env : Surroundings ω) (task : String) (act : WorldM ω α) : WorldM ω α := do
  startTask env task
  fun w =>
    match act w with
    | .ok a w => (do endTask env; return a : WorldM ω α) w
    | .error e w => (do endTask env; throw e : WorldM ω α) w

/-- Yields to others; answers whether the task may go on. -/
def yield (env : Surroundings ω) : WorldM ω Bool := do
  modify fun w =>
    let (asked, around) := env.pause w.around
    { graph := if asked then w.graph.cancel.2 else w.graph, around }
  return !(← get).graph.lock.cancelled

end World

end LiveGraph
