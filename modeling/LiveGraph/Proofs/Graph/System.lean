import LiveGraph.Proofs.Graph.Channel
import LiveGraph.Proofs.Graph.Replication
import LiveGraph.Proofs.Lock.Announcement

/-!
# A graph, its users and a consumer

Users share a graph through its lock, edit it in their sections and run long tasks. What they publish
waits in the channel until a consumer takes it, one event at a time and as late as it likes, and
applies it to its replica. A list of moves is one interleaving of all users with the consumer.

The replica is always one that would show the graph, had it applied the events that wait and those
that the owner of the graph is still about to publish.
-/

namespace LiveGraph

/-- The move changes the value. -/
def LockMove.updates {α : Type} : LockMove α → Bool
  | update _ _ => true
  | _ => false

/-- A shared graph with a consumer of its events. -/
structure System where
  /-- The graph behind its lock, and the users. -/
  lock : LockMachine GraphData
  channel : Channel
  /-- What the edit under way is still to publish, oldest first. -/
  outgoing : List Event := []
  /-- What the consumer has made of the events so far. -/
  replica : GraphReplica := {}

namespace System

/-- A new graph with a consumer, and no users yet. -/
def start (g : Graph) : Except EmitterError System := do
  return { lock := { name := g.name, value := g.data, state := g.lock }
           channel := ← Channel.connect }

/-- One move of a user or of the consumer. -/
inductive Move
  /-- A user makes a move of the lock. -/
  | lock (mv : LockMove GraphData)
  /-- A user edits the graph in its section. -/
  | edit (agent : Nat) (c : GraphData.Call)
  /-- The next event of the edit under way is published. -/
  | publish
  /-- The consumer takes an event and applies it. -/
  | receive

/-- The system after a move of the lock: news of tasks are published at once. -/
def relock (s : System) (m : LockMachine GraphData) : System :=
  { s with
    lock := m
    channel := ((m.told.toList.drop s.lock.told.size).map .task).foldl Channel.emit s.channel }

/-- The system after a move, if the move can be made. Who is in the middle of an edit makes no other
move, edits are the only changes of the graph, and the receiver does not give up. -/
def step? (s : System) : Move → Option System
  | .lock mv =>
    if mv.fails ∨ mv.updates ∨ (s.outgoing ≠ [] ∧ mv.agent? = s.lock.owner) then none
    else (s.lock.step? mv).map s.relock
  | .edit i c =>
    if s.outgoing ≠ [] then none
    else
      let (_, value, events) := c.edit.perform s.lock.value
      (s.lock.step? (.update i fun _ => value)).map fun lock =>
        { s with lock, outgoing := events.toList }
  | .publish =>
    match s.outgoing with
    | [] => none
    | e :: outgoing => some { s with channel := s.channel.emit e, outgoing }
  | .receive =>
    match s.channel.take? with
    | none => none
    | some (e, channel) => some { s with channel, replica := s.replica.follow e }

/-- The system after some moves, if they can all be made. -/
def run (s : System) (moves : List Move) : Option System := moves.foldlM step? s

/-! ## The invariant -/

/-- Users and lock fit each other, only who owns the graph has something to publish, and the replica
would show graph and task after the events that are under way. -/
structure Coherent (s : System) : Prop where
  sound : s.lock.Sound
  busy : s.outgoing ≠ [] → s.lock.owner ≠ none
  replica : ∃ waiting r, s.channel = .holding waiting ∧
    s.replica.Follows (waiting ++ s.outgoing) r ∧ s.lock.value.Replicated r ∧
    Announced s.lock.standing s.lock.state.task r.task

/-- The consumer takes an event: it is one that the replica follows. -/
theorem Coherent.receive {s : System} (h : s.Coherent) {e : Event} {channel : Channel}
    (htake : s.channel.take? = some (e, channel)) :
    (∃ r, GraphReplica.apply e s.replica = .ok () r) ∧
      Coherent { s with channel, replica := s.replica.follow e } := by
  obtain ⟨waiting, r, hchannel, hfollows, hrep, hann⟩ := h.replica
  rw [hchannel] at htake
  cases waiting with
  | nil => cases htake
  | cons e' waiting =>
    rw [Channel.take?_holding] at htake
    cases htake
    cases hfollows with
    | @cons _ r₁ _ _ _ happly hrest =>
      have hfollow : s.replica.follow e = r₁ := by
        rw [GraphReplica.follow, happly]
      refine ⟨⟨r₁, happly⟩, h.sound, h.busy, waiting, r, rfl, ?_, hrep, hann⟩
      rw [hfollow]
      exact hrest

/-- An event that was under way is now in the channel. -/
theorem Coherent.publish {s : System} (h : s.Coherent) {e : Event} {outgoing : List Event}
    (hout : s.outgoing = e :: outgoing) :
    Coherent { s with channel := s.channel.emit e, outgoing } := by
  obtain ⟨waiting, r, hchannel, hfollows, hrep, hann⟩ := h.replica
  have hbusy : s.outgoing ≠ [] := hout ▸ List.cons_ne_nil _ _
  refine ⟨h.sound, fun _ => h.busy hbusy, waiting ++ [e], r, ?_, ?_, hrep, hann⟩
  · rw [hchannel]
    exact Channel.emit_holding waiting e
  · rw [List.append_assoc, List.singleton_append, ← hout]
    exact hfollows

/-- A change of the graph puts under way what the replica needs to keep up with it. -/
theorem Coherent.perform {s : System} (h : s.Coherent) (hout : s.outgoing = []) {i : Nat}
    {value : GraphData} {events : List Event} {lock : LockMachine GraphData}
    (hstep : s.lock.step? (.update i fun _ => value) = some lock)
    (hfollowed : ∀ r, s.lock.value.Replicated r → ∃ r', r.Follows events r' ∧ value.Replicated r' ∧
      r'.task = r.task) :
    Coherent { s with lock, outgoing := events } := by
  obtain ⟨waiting, r, hchannel, hfollows, hrep, hann⟩ := h.replica
  obtain ⟨x, hp, -, rfl⟩ := LockMachine.step_update hstep
  obtain ⟨r', hnew, hrep', htask⟩ := hfollowed r hrep
  -- whoever is in a section owns the graph, so the events under way have an owner
  have howns : (s.lock.standing i).owns = true := by
    rw [LockMachine.standing, hp, Phase.owns_standing]
    rfl
  refine ⟨h.sound, fun _ => ?_, waiting, r', hchannel, ?_, hrep', ?_⟩
  · show s.lock.owner ≠ none
    rw [(h.sound.owner_iff i).2 howns]
    exact Option.some_ne_none i
  · rw [hout, List.append_nil] at hfollows
    exact hfollows.append hnew
  · rw [htask]
    exact hann

theorem Coherent.edit {s : System} (h : s.Coherent) (hout : s.outgoing = []) {i : Nat}
    {c : GraphData.Call} {lock : LockMachine GraphData}
    (hstep : s.lock.step? (.update i fun _ => (c.edit.perform s.lock.value).2.1) = some lock) :
    Coherent { s with lock, outgoing := (c.edit.perform s.lock.value).2.2.toList } :=
  h.perform hout hstep fun _ hrep => hrep.call c

/-- A user that does not own the graph tells no news while another one does. -/
theorem Coherent.quiet_of_outgoing {s : System} (h : s.Coherent) {m : LockMachine GraphData}
    {i : Nat} {told : List (Option String)} (hstep : LockMachine.Stepped s.lock m false i told)
    (hout : s.outgoing ≠ []) (hi : some i ≠ s.lock.owner) : m.owner = s.lock.owner ∧ told = [] := by
  have howns : (s.lock.phase i).standing.owns = false := by
    rw [← Bool.not_eq_true, ← LockMachine.standing, ← h.sound.owner_iff]
    exact hi.symm
  have howed := Phase.owed_eq_none ((Phase.owns_standing _).symm.trans howns)
  exact hstep.turn.of_not_owns howns howed (h.busy hout)

/-- Moves of the lock keep the consumer up to date about tasks. -/
theorem Coherent.lock {s : System} (h : s.Coherent) {mv : LockMove GraphData}
    {m : LockMachine GraphData} (hfails : mv.fails = false) (hupdates : mv.updates = false)
    (hfree : s.outgoing = [] ∨ mv.agent? ≠ s.lock.owner) (hstep : s.lock.step? mv = some m) :
    (s.relock m).Coherent := by
  have hsound := h.sound.step hstep
  obtain ⟨waiting, r, hchannel, hfollows, hrep, hann⟩ := h.replica
  rcases LockMachine.step_cases hstep with ⟨i, f, x, rfl, -⟩ | ⟨-, hsame⟩ | ⟨i, told, hi, hmove⟩
  -- updates are edits, which are moves of their own
  · cases hupdates
  · have hold : m.told.toList.drop s.lock.told.size = [] := by
      rw [hsame.told, List.drop_eq_nil_of_le (Nat.le_of_eq Array.length_toList)]
    refine ⟨hsound, fun hout => ?_, waiting, r, ?_, hfollows, ?_, ?_⟩
    · show m.owner ≠ none
      rw [hsame.owner]
      exact h.busy hout
    · rw [relock, hold, hchannel]
      rfl
    · show m.value.Replicated r
      rw [hsame.value]
      exact hrep
    · show Announced m.standing m.state.task r.task
      rw [hsame.standing_eq, hsame.task]
      exact hann
  · rw [hfails] at hmove
    -- either nothing is under way, or there is no news
    have hcases : s.outgoing = [] ∨ (m.owner = s.lock.owner ∧ told = []) := by
      rcases hfree with hout | hother
      · exact .inl hout
      · by_cases hout : s.outgoing = []
        · exact .inl hout
        · exact .inr (h.quiet_of_outgoing hmove hout (hi ▸ hother))
    have hnews : m.told.toList.drop s.lock.told.size = told := by
      rw [hmove.told, ← Array.length_toList, List.drop_left]
    -- news of tasks leave the copies alone, so the replica shows the graph as before
    obtain ⟨r', hnew, hn, he, htask⟩ := r.follows_tasks told
    refine ⟨hsound, fun hout => ?_, waiting ++ told.map .task, r', ?_, ?_, ?_, ?_⟩
    · rcases hcases with hnone | ⟨howner, -⟩
      · exact absurd hnone hout
      · show m.owner ≠ none
        rw [howner]
        exact h.busy hout
    · rw [relock, hnews, hchannel]
      exact Channel.foldl_emit_holding waiting _
    · show s.replica.Follows (waiting ++ told.map .task ++ s.outgoing) r'
      rcases hcases with hnone | ⟨-, rfl⟩
      · rw [hnone, List.append_nil] at hfollows ⊢
        exact hfollows.append hnew
      · cases hnew
        rw [List.map_nil, List.append_nil]
        exact hfollows
    · show m.value.Replicated r'
      rw [hmove.value]
      exact ⟨hn ▸ hrep.nodes, he ▸ hrep.edges⟩
    · show Announced m.standing m.state.task r'.task
      rw [htask]
      exact hann.turn h.sound (fun j x => Phase.owns_of_owed) hmove.turn
        fun j hj => hmove.standing_eq hj

/-- Every move keeps the system coherent. -/
theorem Coherent.step {s s' : System} {mv : Move} (h : s.Coherent) (hstep : s.step? mv = some s') :
    s'.Coherent := by
  cases mv with
  | lock mv =>
    rw [step?] at hstep
    split at hstep
    · cases hstep
    · next hguard =>
      obtain ⟨m, hm, rfl⟩ := Option.map_eq_some_iff.1 hstep
      rw [not_or, not_or, Decidable.not_and_iff_not_or_not, Decidable.not_not] at hguard
      obtain ⟨hfails, hupdates, hfree⟩ := hguard
      exact h.lock (Bool.eq_false_iff.2 hfails) (Bool.eq_false_iff.2 hupdates) hfree hm
  | edit i c =>
    rw [step?] at hstep
    split at hstep
    · cases hstep
    · next hguard =>
      obtain ⟨lock, hlock, rfl⟩ := Option.map_eq_some_iff.1 hstep
      exact h.edit (Decidable.not_not.1 hguard) hlock
  | publish =>
    rw [step?] at hstep
    split at hstep
    · cases hstep
    · next e outgoing hout =>
      cases hstep
      exact h.publish hout
  | receive =>
    rw [step?] at hstep
    split at hstep
    · cases hstep
    · next e channel htake =>
      cases hstep
      exact (h.receive htake).2

/-- Every run of moves keeps the system coherent. -/
theorem Coherent.run {s s' : System} {moves : List Move} (h : s.Coherent)
    (hrun : s.run moves = some s') : s'.Coherent := by
  induction moves generalizing s with
  | nil =>
    cases hrun
    exact h
  | cons mv moves ih =>
    rw [System.run, List.foldlM_cons] at hrun
    obtain ⟨s₁, hstep, hrest⟩ := Option.bind_eq_some_iff.1 hrun
    exact ih (h.step hstep) hrest

/-- Connecting to a graph succeeds, with nothing in the channel. -/
theorem start_eq (g : Graph) : start g = .ok
    { lock := { name := g.name, value := g.data, state := g.lock }, channel := .holding [] } := by
  rw [start, Channel.connect_eq]
  rfl

/-- The system of a new graph is coherent. -/
theorem coherent_start {config : GraphConfig} (hv : config.Valid) :
    ∃ g s, Graph.new config = .ok g ∧ start g = .ok s ∧ s.Coherent := by
  have hvalidate : config.validate = .ok () := by
    rw [GraphConfig.validate, (StoreConfig.validate_eq_ok_iff _).2 hv.1]
    exact (StoreConfig.validate_eq_ok_iff _).2 hv.2
  have hgraph : Graph.new config = .ok
      { name := config.lockName,
        data := { nodes := { config := config.nodes }, edges := { config := config.edges } } } := by
    rw [Graph.new, hvalidate, GraphData.new_eq_ok_iff.2 ⟨hv, rfl⟩]
  refine ⟨_, _, hgraph, start_eq _, LockMachine.sound_initial _ _, fun hout => absurd rfl hout, [], {},
    rfl, .nil _, ⟨Store.replicated_empty hv.1, Store.replicated_empty hv.2⟩, fun i x hx => ?_,
    fun _ => rfl⟩
  cases hx

/-! ## Agreement -/

/-- Nothing is under way: no event waits, nobody owns the graph, and no change is pending. -/
structure Quiet (s : System) : Prop where
  queued : s.channel.queued = []
  unowned : ∀ i, (s.lock.phase i).owns = false
  nodes : s.lock.value.nodes.pendingChanges = 0
  edges : s.lock.value.edges.pendingChanges = 0

/-- Whether somebody owns the graph can be seen from the users that have joined. -/
theorem unowned_iff (s : System) :
    (∀ i, (s.lock.phase i).owns = false) ↔ ∀ a ∈ s.lock.agents, a.phase.owns = false := by
  constructor
  · intro h a ha
    obtain ⟨i, hi⟩ := Array.mem_iff_getElem?.1 ha
    have howns := h i
    rw [LockMachine.phase, hi] at howns
    exact howns
  · intro h i
    rw [LockMachine.phase]
    split
    · next a hi => exact h a (Array.mem_of_getElem? hi)
    · rfl

theorem quiet_iff (s : System) : s.Quiet ↔ s.channel.queued = [] ∧
    (∀ a ∈ s.lock.agents, a.phase.owns = false) ∧ s.lock.value.nodes.pendingChanges = 0 ∧
      s.lock.value.edges.pendingChanges = 0 := by
  rw [← unowned_iff]
  exact ⟨fun ⟨hq, hu, hn, he⟩ => ⟨hq, hu, hn, he⟩, fun ⟨hq, hu, hn, he⟩ => ⟨hq, hu, hn, he⟩⟩

instance (s : System) : Decidable s.Quiet := decidable_of_iff _ s.quiet_iff.symm

/-- The consumer has the graph as it is, and knows the task that runs. -/
structure InAgreement (s : System) : Prop where
  nodes : s.lock.value.nodes.ShownBy s.replica.nodes
  edges : s.lock.value.edges.ShownBy s.replica.edges
  task : s.replica.task = s.lock.state.task

/-- What a consumer can rely on. -/
structure Faithful (s : System) : Prop where
  /-- The next event is applied without error. -/
  accepted : ∀ e channel, s.channel.take? = some (e, channel) →
    ∃ r, GraphReplica.apply e s.replica = .ok () r
  /-- Once nothing is under way, the consumer has the graph as it is. -/
  agreed : s.Quiet → s.InAgreement

/-- When nobody owns the graph and no event waits, the replica has caught up. -/
theorem Coherent.inAgreement {s : System} (h : s.Coherent) (hq : s.Quiet) : s.InAgreement := by
  obtain ⟨waiting, r, hchannel, hfollows, hrep, hann⟩ := h.replica
  -- without an owner nothing is under way but what waits, and nobody owes news
  have howner : s.lock.owner = none := by
    rw [Option.eq_none_iff_forall_ne_some]
    intro i hi
    have howns := (h.sound.owner_iff i).1 hi
    rw [LockMachine.standing, Phase.owns_standing, hq.unowned i] at howns
    cases howns
  have hwaiting : waiting = [] := by
    rw [← Channel.queued_holding waiting, ← hchannel]
    exact hq.queued
  have hout : s.outgoing = [] := Decidable.byContradiction fun hout => h.busy hout howner
  have hnews : ∀ i, (s.lock.standing i).owed = none := fun i => Phase.owed_eq_none (hq.unowned i)
  rw [hwaiting, hout] at hfollows
  cases hfollows
  exact ⟨hrep.nodes.shownBy hq.nodes, hrep.edges.shownBy hq.edges, hann.settled hnews⟩

theorem Coherent.faithful {s : System} (h : s.Coherent) : s.Faithful where
  accepted _ _ htake := (h.receive htake).1
  agreed := h.inAgreement

/-- However the users of a new graph and a consumer of its events take turns, the consumer applies
every event without error, and whenever nothing is under way it has the graph as it is. -/
theorem consumer_agrees {config : GraphConfig} (hv : config.Valid) :
    ∃ g s₀, Graph.new config = .ok g ∧ start g = .ok s₀ ∧
      ∀ moves s, s₀.run moves = some s → s.Faithful := by
  obtain ⟨g, s₀, hgraph, hstart, hcoherent⟩ := coherent_start hv
  refine ⟨g, s₀, hgraph, hstart, fun moves s hrun => ?_⟩
  have hs := hcoherent.run hrun
  exact hs.faithful

/-- A user adds a node and publishes it, then starts a long task and yields, while the consumer lags
behind. -/
def visit : List Move :=
  [.lock .join, .lock (.call 0 .write), .lock (.proceed 0), .lock (.proceed 0), .lock (.proceed 0),
   .edit 0 (.addNode default), .publish, .edit 0 .flush, .receive, .publish, .lock (.release 0),
   .lock (.proceed 0), .lock (.call 0 (.long "layout")), .lock (.proceed 0), .lock (.proceed 0),
   .lock (.proceed 0), .lock (.proceed 0), .lock (.yield 0), .lock (.proceed 0), .receive, .receive]

/-- After the visit nothing is under way while a task runs, and the consumer has both. -/
theorem consumer_agrees_visit : ∃ g s₀ s,
    Graph.new { nodes := { blockSize := 2, maxModified := 1 } } = .ok g ∧ start g = .ok s₀ ∧
      s₀.run visit = some s ∧ s.Quiet ∧ s.lock.state.task = some "layout" ∧ s.InAgreement := by
  have hv : ({ nodes := { blockSize := 2, maxModified := 1 } } : GraphConfig).Valid :=
    ⟨by decide, by decide⟩
  obtain ⟨g, s₀, hgraph, hstart, hall⟩ := consumer_agrees hv
  have hvisit : (s₀.run visit).any (fun s => s.Quiet ∧ s.lock.state.task = some "layout") = true := by
    cases hgraph
    cases hstart
    decide +kernel
  obtain ⟨s, hrun, hquiet⟩ := (Option.any_eq_true _ _).1 hvisit
  obtain ⟨hq, htask⟩ := of_decide_eq_true hquiet
  exact ⟨_, _, s, hgraph, hstart, hrun, hq, htask, (hall visit s hrun).agreed hq⟩

end System

end LiveGraph
