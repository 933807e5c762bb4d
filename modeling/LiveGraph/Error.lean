import LiveGraph.Attribute.Error
import LiveGraph.Config
import LiveGraph.Emitter.Error
import LiveGraph.Replica

/-!
# Errors of a graph

Three things can keep a call on a graph from doing its work: the graph is locked, the task was asked
to stop, or something else went wrong, which is told in words. The errors of the parts of a graph
are of the third kind.
-/

namespace LiveGraph

/-- What class an error belongs to. -/
inductive ErrorKind
  | busy
  | cancelled
  | other
deriving DecidableEq, Repr

namespace ErrorKind

/-- The class as it stands in reports. -/
def label : ErrorKind → String
  | busy => "Busy"
  | cancelled => "Cancelled"
  | other => "Other"

/-- What the class means to a user. -/
def message : ErrorKind → String
  | busy => "The graph is currently locked."
  | cancelled => "The task was cancelled."
  | other => "An unknown error occurred"

end ErrorKind

/-- Why a call on a graph does not do its work. -/
inductive GraphError
  /-- The resource is locked, by a named task or by a short section. -/
  | busy (resource : String) (task : Option String)
  /-- The task saw a request to stop. -/
  | cancelled (task : String)
  /-- Anything else, in words. -/
  | other (text : String)
deriving DecidableEq, Repr

namespace GraphError

/-- The class of an error. -/
def kind : GraphError → ErrorKind
  | busy _ _ => .busy
  | cancelled _ => .cancelled
  | other _ => .other

/-- The message of an error. -/
def message : GraphError → String
  | busy resource (some task) => s!"{resource} cannot be modified since {task} is running"
  | busy resource none => s!"{resource} is locked by another operation"
  | cancelled task => s!"{task} was cancelled"
  | other text => text

/-- The task that the error is about. -/
def task? : GraphError → Option String
  | busy _ task => task
  | cancelled task => some task
  | other _ => none

/-- A refused configuration. -/
def ofConfig (e : ConfigError) : GraphError := other e.message

/-- A refused attribute operation. -/
def ofAttribute (e : AttributeError) : GraphError := other e.message

/-- A refused subscription. -/
def ofEmitter (e : EmitterError) : GraphError := other e.message

/-- A refused update. -/
def ofReplica (e : ReplicaError) : GraphError := other e.message

end GraphError

end LiveGraph
