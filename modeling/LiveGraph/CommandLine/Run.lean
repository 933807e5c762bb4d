import LiveGraph.CommandLine.Options
import LiveGraph.Config.Document
import LiveGraph.Graph.Random
import LiveGraph.Number.Format
import LiveGraph.Pool.Machine
import LiveGraph.Pulse
import LiveGraph.Replica

/-!
# A run of the command line

A run fills a graph at random, lays it out as a long task, lets one node pulse, and reports. All the
while a consumer keeps a replica from the graph's events, and at the end the replica is compared
with the graph. An editor moves random nodes in short writes. Those that it tries while the layout
runs are turned away.

How fast the layout works and how many writes come before or after it is up to the machine. It is an
input here (`Timing`), without which there is no report; time passes by the layout's work alone.
`Timing.estimate` stands in for a machine where none is at hand.
-/

namespace LiveGraph

/-- What the machine decides about a run. -/
structure Timing where
  /-- The microseconds of a relaxation, in a graph of so many nodes and edges. -/
  relaxation : Nat → Nat → Nat
  /-- The editor's writes before the layout has started. -/
  early : Nat
  /-- The editor's writes between the end of the layout and its own. -/
  late : Nat

/-- A relaxation takes ten microseconds for each element, a fifth of one for each pair of nodes, and
five for the rest. All writes of the editor fall into the layout. -/
def Timing.estimate : Timing where
  relaxation nodes edges := 5 + 10 * (nodes + edges) + nodes * (nodes - 1) / 10
  early := 0
  late := 0

/-- Who is around while the layout runs. Times are in microseconds. -/
structure Bystanders where
  /-- What the consumer has. -/
  replica : GraphReplica := {}
  /-- The time that a relaxation takes. -/
  pace : Nat := 0
  /-- The time that the layout has taken so far. -/
  elapsed : Nat := 0
  /-- When the layout is asked to stop. -/
  deadline : Option Nat := none
  /-- The editor works beside the layout, and not only after it. -/
  editing : Bool := false

namespace Bystanders

/-- The time between two writes of the editor. -/
def editPeriod : Nat := 5000

/-- The editor's writes that were turned away, which are those beside the layout. -/
def turnedAway (b : Bystanders) : Nat := if b.editing then b.elapsed / editPeriod else 0

/-- The time of a relaxation passes; answers whether the layout is asked to stop. -/
def passTime (b : Bystanders) : Bool × Bystanders :=
  let elapsed := b.elapsed + b.pace
  let asked := match b.deadline with
    | some deadline => decide (deadline ≤ elapsed)
    | none => false
  (asked, { b with elapsed })

/-- The consumer follows the events; time passes when the layout yields. -/
def surroundings : Surroundings Bystanders where
  hear e b := (false, { b with replica := b.replica.follow e })
  pause := passTime

end Bystanders

/-- What a run reports. -/
structure RunReport where
  layout : LayoutReport
  /-- The editor's writes that came through. -/
  edits : Nat
  /-- The editor's writes that were turned away. -/
  turnedAway : Nat
  /-- The frames of the pulse. -/
  frames : Nat
  /-- The events that the consumer applied. -/
  applied : Nat
  /-- The consumer has what the graph has. -/
  inSync : Bool
deriving DecidableEq, Repr

namespace RunReport

/-- What is said of the layout. -/
def layoutLine (r : RunReport) : String :=
  s!"layout:  {r.layout.iterations} iterations, cancelled: {r.layout.cancelled}"

/-- What is said of the layout's last relaxation. -/
def displacementLine (r : RunReport) : String :=
  "         last displacement " ++ r.layout.displacement.fixed 3

/-- What is said of the editor. -/
def editorLine (r : RunReport) : String :=
  s!"editor:  {r.edits} edits applied, {r.turnedAway} rejected as busy"

/-- What is said of the pulse. -/
def pulseLine (r : RunReport) : String := s!"pulse:   {r.frames} frames"

/-- What is said of the consumer. -/
def consumerLine (r : RunReport) : String :=
  s!"mirror:  {r.applied} events applied, in sync: {r.inSync}"

/-- The report as it is printed. -/
def lines (r : RunReport) : List String :=
  [r.layoutLine, r.displacementLine, r.editorLine, r.pulseLine, r.consumerLine]

end RunReport

/-- Why a run ends without a report. -/
inductive RunError
  | config (e : ConfigError)
  | failed (e : GraphError)
  | fault (f : Fault)
deriving DecidableEq, Repr

namespace RunError

/-- The error of a call on the graph. -/
def ofFailure : Failure GraphError → RunError
  | .error e => failed e
  | .fault f => fault f

/-- The exit code. -/
def code : RunError → UInt32
  | config _ | failed _ => 1
  | fault _ => 101

/-- What the user is told. -/
def message : RunError → String
  | config e => e.message
  | failed e => e.message
  | fault f => f.message?.getD "internal fault"

end RunError

/-- The exit code for wrong arguments. -/
def usageCode : UInt32 := 2

namespace Run

/-- The work of a run. -/
abbrev Work (α : Type) := WorldM Bystanders α

/-- The duration of the pulse, in seconds. -/
def pulseDuration : Double := ⟨0x3fd0000000000000⟩

/-- The time between two frames: a sixtieth of a second. -/
def frameTime : Double := ⟨0x3f91111111111111⟩

/-- More frames than the pulse has. -/
def frameLimit : Nat := 1000

/-- Shows frames until no pulse runs, and answers how many there were. -/
def showFrames : Nat → AnimationSet Pulse → Nat → Work Nat
  | 0, _, shown => return shown
  | n + 1, pulses, shown => do
    if pulses.size = 0 then return shown
    let pulses ← World.write Bystanders.surroundings do
      let pulses ← Pulse.tick pulses frameTime
      GraphData.flush
      return pulses
    showFrames n pulses (shown + 1)

/-- Lets a random node pulse, if there is one, and answers the number of frames. -/
def pulseRandomNode {γ : Type} [RandomSource γ] (source : γ) : Work Nat := do
  let d := (← get).graph.data
  let (slot?, _) := (Draw.choose? (d.nodes.live.map (·.1))).run source
  match slot?.bind (Pulse.of? d · pulseDuration) with
  | none => return 0
  | some p =>
    let pulses : AnimationSet Pulse := {}
    showFrames frameLimit (pulses.add pulseDuration p).2 0

/-- Whether the consumer has what the graph has of a kind. -/
def inSync (w : World Bystanders) (k : Kind) : Except Fault Bool := do
  let bytes ← (← w.graph.data.snapshot k).toBytes
  return (w.around.replica.replica k).agrees (w.graph.data.len k) bytes

/-- Sets the pace of the layout by the size of the graph. -/
def setPace (timing : Timing) : Work Unit :=
  modify fun ⟨graph, around⟩ =>
    ⟨graph, { around with pace := timing.relaxation graph.data.nodeCount graph.data.edgeCount }⟩

/-- Moves a random node by less than one in either direction, if there is one. -/
def nudge {γ : Type} [RandomSource γ] (source : γ) : GraphEdit γ := do
  let (picked, source) := (Draw.choose? (← Edit.read).nodes.live).run source
  match picked with
  | none => return source
  | some (slot, r) =>
    let offset : Draw γ Single := Draw.single ⟨0xbf800000⟩ ⟨0x3f800000⟩
    let (dx, source) := offset.run source
    let (dy, source) := offset.run source
    GraphData.moveNode slot ⟨r.pos.x + dx, r.pos.y + dy⟩
    GraphData.flush
    return source

/-- The editor's next writes, so many of them. -/
def nudges {γ : Type} [RandomSource γ] : Nat → γ → Work γ
  | 0, source => return source
  | n + 1, source => do
    let source ← World.write Bystanders.surroundings (nudge source)
    nudges n source

/-- The whole run. -/
def work (o : RunOptions) (timing : Timing) : Work RunReport := do
  let env := Bystanders.surroundings
  let source ← World.write env do
    let source ← GraphData.addRandom o.nodes o.edges (ChaCha.ofSeed (UInt64.ofNat o.seed))
    GraphData.flush
    return source
  -- the layout and the editor work in a pool, which is started once the graph is filled
  if !o.workers.all WorkerPool.admits then throw (.fault .overflow)
  setPace timing
  -- an editor that has to wait for the only worker writes after the layout
  let early := if (← get).around.editing then timing.early else 0
  let editor ← nudges early (ChaCha.ofSeed (UInt64.ofNat (o.seed + 1)))
  let layout ← Layout.run env {} o.iterations
  let _ ← nudges timing.late editor
  let frames ← pulseRandomNode source
  let w ← get
  match inSync w .node, inSync w .edge with
  | .ok nodes, .ok edges =>
    return { layout, edits := early + timing.late, turnedAway := w.around.turnedAway, frames,
             applied := w.around.replica.applied, inSync := nodes && edges }
  | .error f, _ | _, .error f => throw (.fault f)

/-- Runs with a configuration. -/
def withConfig (o : RunOptions) (config : GraphConfig) (timing : Timing) :
    Except RunError RunReport := do
  let graph ← (Graph.new config).mapError .ofFailure
  let around : Bystanders :=
    { deadline := o.cancelAfter.map (1000 * ·), editing := 2 ≤ o.workers.getD 2 }
  match work o timing { graph, around } with
  | .ok report _ => return report
  | .error e _ => throw (.ofFailure e)

/-- Runs with the content of the configuration file that the options name; `none` stands for a file
that cannot be read. -/
def withFile (o : RunOptions) (file : Option ByteArray) (timing : Timing := .estimate) :
    Except RunError RunReport :=
  match o.config with
  | none => withConfig o {} timing
  | some _ =>
    match GraphConfig.ofFile file with
    | .ok config => withConfig o config timing
    | .error e => .error (.config e)

end Run

end LiveGraph
