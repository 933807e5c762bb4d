import LiveGraph.Graph.Random
import LiveGraph.Layout
import LiveGraph.Pulse
import LiveGraph.Replica
import LiveGraph.Session.Handles

/-!
# Sessions with a graph

A session with a graph holds at most one section of the graph's lock. It listens to the graph's
channel: it notes the events, lets a replica follow them, and can ask the running task to stop when
a given number of them went by. It also keeps snapshots under names and the pulses that run.

Steps that change the graph use the held section or a short one of their own; steps that look at it
are always possible.
-/

namespace LiveGraph

/-- What the session hears of a graph. -/
structure Listener where
  replica : GraphReplica := {}
  /-- The events since the last step, oldest first. -/
  heard : Array Event := #[]
  /-- The number of events until the running task is asked to stop. -/
  countdown : Option Nat := none

namespace Listener

/-- Hears an event; answers whether this is the one to stop at. -/
def hear (e : Event) : Listener → Bool × Listener
  | ⟨replica, heard, countdown⟩ =>
    let due := match countdown with
      | some n => decide (n ≤ 1)
      | none => false
    (due, ⟨replica.follow e, heard.push e, if due then none else countdown.map (· - 1)⟩)

/-- The session listens; nobody else uses the graph. -/
def surroundings : Surroundings Listener where
  hear := hear
  pause l := (false, l)

end Listener

/-- A session with a graph. -/
structure GraphSession where
  world : World Listener
  /-- The section that the session holds. -/
  held : Option Section := none
  handles : Handles := {}
  pulses : AnimationSet Pulse := {}

namespace GraphSession

variable {α : Type}

/-- A step of the session. -/
abbrev Step (α : Type) := SessionM GraphSession α

/-- A session with an empty graph. -/
def new (config : GraphConfig) : Except Trouble GraphSession :=
  match Graph.new config with
  | .ok graph => .ok { world := { graph := { graph with observers := 1 }, around := {} } }
  | .error e => .error (.ofGraph e)

/-- The graph as it stands. -/
def graph (s : GraphSession) : Graph := s.world.graph

/-- The graph's data as they stand. -/
def data (s : GraphSession) : GraphData := s.world.graph.data

/-- What the session heard since the last time. -/
def takeHeard (s : GraphSession) : Array Event × GraphSession :=
  let ⟨⟨graph, ⟨replica, heard, countdown⟩⟩, held, handles, pulses⟩ := s
  (heard, ⟨⟨graph, ⟨replica, #[], countdown⟩⟩, held, handles, pulses⟩)

/-- What the lock shows. -/
def status (s : GraphSession) : LockStatus := .of s.graph.lock s.held.isSome

/-- Acts in the session's world. -/
def act (a : WorldM Listener α) : Step α := fun ⟨world, held, handles, pulses⟩ =>
  match a world with
  | .ok x world => .ok x ⟨world, held, handles, pulses⟩
  | .error e world => .error (.ofGraph e) ⟨world, held, handles, pulses⟩

/-- Changes the graph alone. -/
def onGraph (f : Graph → α × Graph) : Step α := fun s =>
  let (a, graph) := f s.world.graph
  .ok a { s with world := { s.world with graph } }

/-! ## Sections -/

/-- Refuses a section that would wait for the one that the session holds. Beside a long task only
readers wait; beside a short section everybody does. -/
def refuseToWait (wanted : Section) : Step Unit := do
  match (← get).held with
  | none => pure ()
  | some (.long _) => if wanted = .read then SessionM.refuse .wouldBlock
  | some _ => SessionM.refuse .wouldBlock

/-- Fails while a long task runs. -/
def permit : Step Unit := do
  let g := (← get).graph
  SessionM.ofExcept .graph (g.lock.permit g.name)

/-- Takes a section that is free to take. -/
def take (wanted : Section) : Step Unit := do
  match wanted with
  | .long task => act (World.startTask Listener.surroundings task)
  | .write => permit
  | .read => pure ()
  modify ({ · with held := some wanted })

/-- Enters a section. -/
def enter (wanted : Section) : Step Unit := do
  refuseToWait wanted
  take wanted

/-- Enters a long task, and fails where it would have to wait. -/
def tryEnter (task : String) : Step Unit := do
  permit
  let s ← get
  if s.held.isSome then throw (.graph (.busy s.graph.name none))
  take (.long task)

/-- Leaves the held section, if there is one. -/
def leave : Step Unit := do
  match (← get).held with
  | some (.long _) => act (World.endTask Listener.surroundings)
  | _ => pure ()
  modify ({ · with held := none })

/-- Yields as the long task that the session holds; answers its name and whether it may go on. -/
def yield : Step (String × Bool) := do
  match (← get).held with
  | some (.long task) => return (task, ← act (World.yield Listener.surroundings))
  | _ => SessionM.refuse .notHeld

/-- Yields, and fails if the task was asked to stop. -/
def checkpoint : Step Unit := do
  let (task, goesOn) ← yield
  if !goesOn then throw (.graph (.cancelled task))

/-- Asks the long task to stop; answers whether there is one. -/
def cancel : Step Bool := onGraph Graph.cancel

/-- Asks the long task to stop at the `n`-th event from now on. -/
def cancelOnEvent (n : Nat) : Step Unit :=
  modify fun s =>
    { s with world := { s.world with around := { s.world.around with countdown := some n } } }

/-! ## Changes -/

/-- Fails unless the graph may be changed: in the held section, or in a short one. -/
def permitChange : Step Unit := do
  match (← get).held with
  | none => permit
  | some sec => if !sec.canWrite then SessionM.refuse .readOnly

/-- Changes the graph's data. -/
def change (edit : GraphEdit α) : Step α := do
  permitChange
  act (World.edit Listener.surroundings edit)

/-- Changes the attributes of a kind. -/
def onAttributes (k : Kind) (step : SessionM AttributeSet α) : Step α := do
  permitChange
  fun s =>
    let put (attributes : AttributeSet) : GraphSession :=
      let data := s.world.graph.data.setAttributes k attributes
      { s with world := { s.world with graph := { s.world.graph with data } } }
    match step (s.data.attributes k) with
    | .ok a attributes => .ok a (put attributes)
    | .error t attributes => .error t (put attributes)

/-- Fills the graph at random. -/
def addRandom {γ : Type} [RandomSource γ] (nodes edges : Nat) (source : γ) : Step Unit := do
  let _ ← change (GraphData.addRandom nodes edges source)

/-- Advances the pulses; answers how many still run. -/
def tick (dt : Double) : Step Nat := do
  let pulses := (← get).pulses
  let pulses ← change (Pulse.tick pulses dt)
  modify ({ · with pulses })
  return pulses.size

/-- Lays the graph out. -/
def layout (params : LayoutParams) (iterations : Nat) : Step LayoutReport := do
  refuseToWait (.long Layout.taskName)
  act (Layout.run Listener.surroundings params iterations)

/-! ## Looking -/

/-- Looks at the graph's data. -/
def look (f : GraphData → Except Fault α) : Step α := do
  SessionM.reading (f (← get).data)

/-- Works on the named snapshots. -/
def onHandles (step : SessionM Handles α) : Step α := fun s =>
  match step s.handles with
  | .ok a handles => .ok a { s with handles }
  | .error t handles => .error t { s with handles }

/-- Takes a snapshot under a name. -/
def snapshot (k : Kind) (name : String) : Step Unit := do
  let buffer ← look (·.snapshot k)
  onHandles (modify (·.take name buffer))

/-- Starts a pulse, and answers its id, if the slot holds a node. -/
def pulse (slot : Nat) (duration : Double) : Step (Option Nat) := do
  let s ← get
  match Pulse.of? s.data slot duration with
  | none => return none
  | some p =>
    let (id, pulses) := s.pulses.add duration p
    set { s with pulses }
    return some id

/-- Stops a pulse as it stands, and answers whether it was running. -/
def stopPulse (id : Nat) : Step Bool := do
  let (was, pulses) := (← get).pulses.cancel id
  modify ({ · with pulses })
  return was

/-- Whether the replica agrees with the store of a kind on the slots handed out. -/
def inSync (s : GraphSession) (k : Kind) : Except Fault Bool := do
  let expected ← (← s.data.snapshot k).toBytes
  return (s.world.around.replica.replica k).agrees (s.data.len k) expected

/-! ## Receiver -/

/-- Attaches a receiver to the graph's channel. -/
def attach : Step Unit := do
  let graph ← SessionM.ofExcept .emitter (← get).graph.attach
  modify fun s => { s with world := { s.world with graph } }

/-- What the receiver got since the last time; nothing without a receiver. -/
def drain : Step (Option (Array Event)) := onGraph Graph.drain

end GraphSession

end LiveGraph
