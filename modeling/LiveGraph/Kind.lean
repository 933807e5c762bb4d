/-!
# Kinds of elements

A graph has nodes and edges. Each kind has its own record array, and every update names its kind.
-/

namespace LiveGraph

/-- Which record array a store, an event or a replica belongs to. -/
inductive Kind
  | node
  | edge
deriving DecidableEq, Repr, Inhabited

namespace Kind

/-- The kind as it stands in messages. -/
def label : Kind → String
  | node => "Node"
  | edge => "Edge"

/-- The kind as it stands in documents. -/
def key : Kind → String
  | node => "node"
  | edge => "edge"

/-- The kind with a given key. -/
def ofKey? : String → Option Kind
  | "node" => some node
  | "edge" => some edge
  | _ => none

theorem ofKey?_key (k : Kind) : ofKey? k.key = some k := by
  cases k <;> rfl

end Kind

end LiveGraph
