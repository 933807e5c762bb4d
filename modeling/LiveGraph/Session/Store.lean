import LiveGraph.Session.Handles
import LiveGraph.Store.Flush

/-!
# Sessions with one store

A session with a store keeps a replica that follows the store's events, snapshots under names, and
the events that its last step published.
-/

namespace LiveGraph

/-- A store, the replica that follows it, and named snapshots. -/
structure StoreSession (ρ τ : Type) where
  store : Store ρ τ
  replica : Replica
  handles : Handles := {}
  /-- The events of the last step, oldest first. -/
  published : Array Event := #[]

namespace StoreSession

variable {ρ τ α : Type} [Record ρ]

/-- A session with an empty store. -/
def new (config : StoreConfig) : Except Fault (StoreSession ρ τ) := do
  let store ← Store.new config
  return { store, replica := { kind := Record.kind ρ, recordSize := Record.size ρ } }

/-- Edits the store, and lets the replica follow. -/
def edit (act : Edit Fault (Store ρ τ) α) : SessionM (StoreSession ρ τ) α :=
  fun ⟨store, replica, handles, _⟩ =>
    let (outcome, store, events) := act.perform store
    let s := ⟨store, events.foldl Replica.follow replica, handles, events⟩
    match outcome with
    | .ok a => .ok a s
    | .error f => .error (.fault f) s

/-- Reads the store. -/
def look (f : Store ρ τ → Except Fault α) : SessionM (StoreSession ρ τ) α := fun s =>
  match f s.store with
  | .ok a => .ok a { s with published := #[] }
  | .error f => .error (.fault f) { s with published := #[] }

/-- Works on the named snapshots. -/
def onHandles (act : SessionM Handles α) : SessionM (StoreSession ρ τ) α := fun s =>
  match act s.handles with
  | .ok a handles => .ok a { s with handles, published := #[] }
  | .error t handles => .error t { s with handles, published := #[] }

/-- Takes a snapshot under a name. -/
def snapshot (name : String) : SessionM (StoreSession ρ τ) Unit := do
  let buffer ← look Store.snapshot
  onHandles (modify (·.take name buffer))

/-- Writes a record to each of the slots `start .. stop` in turn. The first slot that was never
handed out faults, so no slot behind it is looked at. -/
def setRange (start stop : Nat) (r : ρ) : SessionM (StoreSession ρ τ) Unit := edit do
  let stop := min stop (max start (← Edit.read).len + 1)
  (List.range' start (stop - start)).forM fun slot => Store.set slot (some r)

/-- Whether the replica agrees with the store on the slots handed out. -/
def inSync (s : StoreSession ρ τ) : Except Fault Bool := do
  let expected ← (← s.store.snapshot).toBytes
  return s.replica.agrees s.store.len expected

end StoreSession

end LiveGraph
