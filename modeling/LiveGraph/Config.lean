/-!
# Configuration

How a record store is divided into blocks, when a changed block is sent as a whole, and the name
under which the graph reports that it is locked.
-/

namespace LiveGraph

/-- Offsets inside a block are 16-bit numbers. -/
def maxBlockSize : Nat := 65536

/-- The division of one record store. -/
structure StoreConfig where
  /-- Slots in a block. -/
  blockSize : Nat := 1024
  /-- Changed slots from which on a block is sent as a whole. -/
  maxModified : Nat := 32
deriving DecidableEq, Repr, Inhabited

/-- The configuration of a graph. -/
structure GraphConfig where
  nodes : StoreConfig := {}
  edges : StoreConfig := {}
  /-- The name of the locked resource. -/
  lockName : String := "State"
deriving DecidableEq, Repr, Inhabited

/-- Why a configuration is refused. -/
inductive ConfigError
  /-- The document cannot be read as text. -/
  | unreadable
  /-- The text is no configuration document. -/
  | malformed
  /-- The block size lies outside its range. -/
  | blockSize (given : Nat)
  /-- The threshold lies outside `1 .. blockSize`. -/
  | maxModified (blockSize given : Nat)
deriving DecidableEq, Repr

namespace ConfigError

/-- What is wrong with the values of a well-formed configuration. -/
def reason? : ConfigError → Option String
  | blockSize n => some s!"block_size must be in 1..={maxBlockSize}, got {n}"
  | maxModified b n => some s!"max_modified must be in 1..={b}, got {n}"
  | _ => none

/-- The message of a refused configuration. -/
def message : ConfigError → String
  | unreadable => "IO error"
  | malformed => "invalid configuration JSON"
  | e => "invalid configuration: " ++ e.reason?.getD ""

end ConfigError

namespace StoreConfig

/-- The configurations that a store accepts. -/
def Valid (c : StoreConfig) : Prop :=
  1 ≤ c.maxModified ∧ c.maxModified ≤ c.blockSize ∧ c.blockSize ≤ maxBlockSize

instance (c : StoreConfig) : Decidable c.Valid := by
  unfold Valid; infer_instance

/-- Checks the block size, then the threshold. -/
def validate (c : StoreConfig) : Except ConfigError Unit :=
  if c.blockSize = 0 ∨ maxBlockSize < c.blockSize then .error (.blockSize c.blockSize)
  else if c.maxModified = 0 ∨ c.blockSize < c.maxModified then
    .error (.maxModified c.blockSize c.maxModified)
  else .ok ()

theorem validate_eq_ok_iff (c : StoreConfig) : c.validate = .ok () ↔ c.Valid := by
  unfold validate Valid
  split
  · simp; omega
  · split
    · simp; omega
    · simp; omega

/-- The configuration as it stands in messages. -/
def describe (c : StoreConfig) : String :=
  s!"StoreConfig \x7b block_size: {c.blockSize}, max_modified: {c.maxModified} \x7d"

end StoreConfig

namespace GraphConfig

/-- The configurations that a graph accepts. -/
def Valid (c : GraphConfig) : Prop := c.nodes.Valid ∧ c.edges.Valid

/-- Checks the node store, then the edge store. -/
def validate (c : GraphConfig) : Except ConfigError Unit := do
  c.nodes.validate
  c.edges.validate

end GraphConfig

end LiveGraph
