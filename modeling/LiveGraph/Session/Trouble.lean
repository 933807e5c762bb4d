import LiveGraph.Error

/-!
# What keeps a session's step from answering

A session drives one part of the library step by step. A step that does not answer either failed in
the part itself, or was refused because the session cannot take it: it would wait for itself, it
needs a section that is not held, or it names something that does not exist.
-/

namespace LiveGraph

/-- Why a session does not take a step. -/
inductive Refusal
  /-- The step would wait for a section that the session itself holds. -/
  | wouldBlock
  /-- The step needs a section that the session does not hold. -/
  | notHeld
  /-- The step would change what is only held for reading. -/
  | readOnly
  /-- There is no snapshot of this name. -/
  | noHandle
  /-- There is no attribute table of this name. -/
  | noTable
  /-- The receiver is gone. -/
  | dropped
deriving DecidableEq, Repr

/-- Why a step of a session does not answer. -/
inductive Trouble
  | refused (r : Refusal)
  | fault (f : Fault)
  | graph (e : GraphError)
  | attr (e : AttributeError)
  | emitter (e : EmitterError)
  | replica (e : ReplicaError)
  | config (e : ConfigError)
deriving DecidableEq, Repr

namespace Trouble

/-- The trouble of a call on a graph. -/
def ofGraph : Failure GraphError → Trouble
  | .error e => graph e
  | .fault f => fault f

/-- The trouble of applying an event. -/
def ofReplica : Failure ReplicaError → Trouble
  | .error e => replica e
  | .fault f => fault f

/-- The message, if the trouble has one. -/
def message? : Trouble → Option String
  | refused _ => none
  | fault f => f.message?
  | graph e => some e.message
  | attr e => some e.message
  | emitter e => some e.message
  | replica e => some e.message
  | config e => if e.reason?.isSome then some e.message else none

end Trouble

/-- A step of a session with state `σ`; a step that fails keeps what it changed. -/
abbrev SessionM (σ α : Type) := EStateM Trouble σ α

namespace SessionM

variable {σ α : Type}

/-- The answer of a computation, or its error as trouble. -/
def ofExcept {ε : Type} (trouble : ε → Trouble) : Except ε α → SessionM σ α
  | .ok a => pure a
  | .error e => throw (trouble e)

/-- The answer of a reading that may fault. -/
def reading : Except Fault α → SessionM σ α := ofExcept .fault

/-- Refuses the step. -/
def refuse (r : Refusal) : SessionM σ α := throw (.refused r)

end SessionM

end LiveGraph
