import LiveGraph.Session.Trouble

/-!
# Named snapshots

A session keeps snapshots under names. One snapshot may be held under several names; it counts its
holders, and taking a snapshot again makes another one, with a count of its own.
-/

namespace LiveGraph

/-- What the bytes of a slot are read as. -/
inductive Reading
  | record (kind : Kind)
  /-- A number of so many bytes. -/
  | number (width : Nat)
deriving DecidableEq, Repr

namespace Reading

/-- The bytes that are read. -/
def size : Reading → Nat
  | record k => k.recordSize
  | number w => w

/-- The bytes of a slot, which must be as many as are read. -/
def check (r : Reading) (bytes : Bytes) : Except Fault Bytes :=
  if bytes.size = r.size then .ok bytes else .error .recordSize

end Reading

/-- A snapshot under a name. -/
structure Handle where
  name : String
  /-- Tells apart the snapshots of a session. -/
  origin : Nat
  buffer : Snapshot
deriving Repr

/-- The named snapshots of a session. -/
structure Handles where
  held : List Handle := []
  /-- Snapshots taken so far. -/
  taken : Nat := 0
deriving Repr, Inhabited

namespace Handles

/-- The snapshot under a name. -/
def find (hs : Handles) (name : String) : Except Trouble Handle :=
  match hs.held.find? (·.name == name) with
  | some h => .ok h
  | none => .error (.refused .noHandle)

/-- Whether a snapshot is held under a name. -/
def holds (hs : Handles) (name : String) : Bool := hs.held.any (·.name == name)

/-- The handles without the one under a name. -/
def drop (hs : Handles) (name : String) : Handles :=
  { hs with held := hs.held.filter (·.name != name) }

/-- Holds a new snapshot under a name; what was held there is dropped. -/
def take (hs : Handles) (name : String) (buffer : Snapshot) : Handles :=
  let hs := hs.drop name
  { held := { name, origin := hs.taken, buffer } :: hs.held, taken := hs.taken + 1 }

/-- Holds the snapshot of a handle under a second name; what was held there is dropped. -/
def share (hs : Handles) (h : Handle) (name : String) : Handles :=
  let hs := hs.drop name
  { hs with held := { h with name } :: hs.held }

/-- How many names hold the snapshot of a handle. -/
def count (hs : Handles) (h : Handle) : Nat := hs.held.countP (·.origin == h.origin)

end Handles

end LiveGraph
