import LiveGraph.Event

/-!
# Edits

An edit changes a value and publishes events on the way. It either answers or fails, and in both
cases the changes made and the events published so far stand.
-/

namespace LiveGraph

/-- A value under edit, with the events published so far, oldest first. -/
structure Tracked (σ : Type) where
  value : σ
  events : Array Event := #[]

/-- An edit of a `σ` that answers an `α` or fails with an `ε`. -/
abbrev Edit (ε σ α : Type) := EStateM ε (Tracked σ) α

namespace Edit

variable {ε σ α : Type}

/-- The value as it stands. -/
def read : Edit ε σ σ := fun t => .ok t.value t

/-- Changes the value. -/
def change (f : σ → σ) : Edit ε σ Unit := fun ⟨value, events⟩ => .ok () ⟨f value, events⟩

/-- Publishes an event. -/
def publish (e : Event) : Edit ε σ Unit := fun ⟨value, events⟩ => .ok () ⟨value, events.push e⟩

/-- The answer of a reading that may fail. -/
def ofExcept : Except ε α → Edit ε σ α
  | .ok a => fun t => .ok a t
  | .error e => fun t => .error e t

/-- The outcome of an edit, the value it leaves, and the events it published. -/
def perform (edit : Edit ε σ α) (value : σ) : Except ε α × σ × Array Event :=
  match edit ⟨value, #[]⟩ with
  | .ok a t => (.ok a, t.value, t.events)
  | .error e t => (.error e, t.value, t.events)

end Edit

end LiveGraph
