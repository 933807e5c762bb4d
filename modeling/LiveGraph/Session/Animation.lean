import LiveGraph.Animation

/-!
# Scripted animations

An effect that logs its label at every call, goes on until a given call, and may log its end.
-/

namespace LiveGraph

/-- What a scripted effect logs. -/
inductive ScriptEntry
  /-- Progress at a time. -/
  | progress (label : String) (time : Double)
  /-- The end. -/
  | finish (label : String)

/-- A scripted effect. -/
structure Script where
  label : String
  /-- The call at which it stops going on. -/
  stopAt : Option Nat := none
  /-- It logs its end. -/
  logsEnd : Bool := false
  /-- Calls so far. -/
  calls : Nat := 0

/-- Scripted effects write to a log. -/
def Script.choreography : Choreography (Array ScriptEntry) Script where
  progress s log t :=
    let s := { s with calls := s.calls + 1 }
    (s.stopAt != some s.calls, s, log.push (.progress s.label t))
  finish s log := if s.logsEnd then log.push (.finish s.label) else log

end LiveGraph
