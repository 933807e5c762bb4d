/-!
# Errors of emitters
-/

namespace LiveGraph

/-- Why a subscription is refused. -/
inductive EmitterError
  /-- An emitter has at most one sink, and the first one stays. -/
  | sinkTaken
deriving DecidableEq, Repr

/-- The message of a refused subscription. -/
def EmitterError.message : EmitterError → String
  | sinkTaken => "emitter already has a sink"

end LiveGraph
