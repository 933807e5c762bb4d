import LiveGraph.Number.Double

/-!
# Animations

An animation set advances its animations by the same time on every tick. What an animation does is
an effect: a value of its own that is carried from tick to tick, with a way to make progress on a
shared context and a way to end. An animation ends once its time exceeds its duration, or when its
effect no longer goes on.
-/

namespace LiveGraph

/-- What effects `κ` do to a context `C`. -/
structure Choreography (C κ : Type) where
  /-- Makes progress at a time; answers whether the effect goes on. -/
  progress : κ → C → Double → Bool × κ × C
  /-- Ends the effect. -/
  finish : κ → C → C

/-- A running animation. -/
structure Animation (κ : Type) where
  id : Nat
  elapsed : Double := .zero
  duration : Double
  effect : κ

/-- The running animations. -/
structure AnimationSet (κ : Type) where
  /-- In the order in which they were added. -/
  running : List (Animation κ) := []
  /-- The id of the next animation; ids are not used again. -/
  nextId : Nat := 0

namespace AnimationSet

variable {C κ : Type}

/-- Starts an animation, and answers its id. -/
def add (s : AnimationSet κ) (duration : Double) (effect : κ) : Nat × AnimationSet κ :=
  (s.nextId, { running := s.running ++ [{ id := s.nextId, duration, effect }],
               nextId := s.nextId + 1 })

/-- Advances animations by `dt`, in order. One that ends does so before the next makes progress. -/
def advance (ch : Choreography C κ) (dt : Double) :
    List (Animation κ) → C → List (Animation κ) × C
  | [], c => ([], c)
  | a :: rest, c =>
    let elapsed := dt + a.elapsed
    let (goesOn, effect, c) := ch.progress a.effect c (elapsed.min a.duration)
    if a.duration.lt elapsed || !goesOn then advance ch dt rest (ch.finish effect c)
    else
      let (rest, c) := advance ch dt rest c
      ({ a with elapsed, effect } :: rest, c)

/-- Advances all animations by `dt`. -/
def tick (ch : Choreography C κ) (s : AnimationSet κ) (c : C) (dt : Double) :
    AnimationSet κ × C :=
  let (running, c) := advance ch dt s.running c
  ({ s with running }, c)

/-- Removes an animation without ending its effect, and answers whether it was running. -/
def cancel (s : AnimationSet κ) (id : Nat) : Bool × AnimationSet κ :=
  (s.running.any (·.id == id), { s with running := s.running.filter (·.id != id) })

/-- The number of running animations. -/
def size (s : AnimationSet κ) : Nat := s.running.length

/-- The set as it stands in messages. -/
def describe (s : AnimationSet κ) : String := s!"AnimationSet \x7b running: {s.size} \x7d"

/-- An id as it stands in messages. -/
def idLabel (id : Nat) : String := s!"AnimationId({id})"

end AnimationSet

end LiveGraph
