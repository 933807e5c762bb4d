import LiveGraph.Proofs.Graph.Replication

/-!
# Two copies in one replica

A graph replica is told of nodes, edges and tasks in one stream. It does with the stream what two
replicas would do, of which one is told of the nodes only and one of the edges only: nothing that
happens to one copy, errors and faults included, reaches the other. So the order matters within the
node events, the edge events and the news of tasks, but not how the three are interleaved.
-/

namespace LiveGraph

namespace Event

/-- The events for one array, in their order. -/
def only (k : Kind) (es : List Event) : List Event := es.filter fun e => e.kind? = some k

/-- The task that the event brings news of. -/
def news? : Event → Option (Option String)
  | .task name => some name
  | _ => none

/-- The news of tasks, in their order. -/
def news (es : List Event) : List (Option String) := es.filterMap news?

/-- How many of the events are accepted, when each is put to the state that the one before left. -/
def accepted {ε σ α : Type} (step : Event → EStateM ε σ α) : σ → List Event → Nat
  | _, [] => 0
  | s, e :: es =>
    match step e s with
    | .ok _ s' => accepted step s' es + 1
    | .error _ s' => accepted step s' es

/-- An event is news of a task, or for one of the arrays. -/
theorem task_or_kind (e : Event) : (∃ name, e = .task name) ∨ ∃ k, e.kind? = some k := by
  cases e with
  | task name => exact .inl ⟨name, rfl⟩
  | _ => exact .inr ⟨_, rfl⟩

section

variable {e : Event} {k : Kind}

/-- An event of the kind stays in front. -/
theorem only_cons_of_kind (h : e.kind? = some k) (es : List Event) :
    only k (e :: es) = e :: only k es := by
  rw [only, List.filter_cons_of_pos (by simpa using h)]
  rfl

/-- An event of another kind is left out. -/
theorem only_cons_of_other (h : e.kind? ≠ some k) (es : List Event) :
    only k (e :: es) = only k es := by
  rw [only, List.filter_cons_of_neg (by simpa using h)]
  rfl

/-- An accepted event counts. -/
theorem accepted_of_ok {ε σ α : Type} {step : Event → EStateM ε σ α} {s s' : σ} {a : α}
    (h : step e s = .ok a s') (es : List Event) :
    accepted step s (e :: es) = accepted step s' es + 1 := by
  rw [accepted, h]

theorem accepted_of_error {ε σ α : Type} {step : Event → EStateM ε σ α} {s s' : σ} {failure : ε}
    (h : step e s = .error failure s') (es : List Event) :
    accepted step s (e :: es) = accepted step s' es := by
  rw [accepted, h]

theorem news_cons_of_kind (h : e.kind? = some k) (es : List Event) : news (e :: es) = news es := by
  cases e with
  | task name => cases h
  | _ => rfl

end

end Event

namespace Replica

open Event

/-- Accepted events can be counted from the first on. -/
theorem accepted_cons (r : Replica) (e : Event) (es : List Event) :
    accepted apply r (e :: es) = accepted apply r [e] + accepted apply (r.follow e) es := by
  rw [follow]
  cases h : apply e r with
  | ok _ r' =>
    rw [accepted_of_ok h, accepted_of_ok h]
    exact Nat.add_comm _ _
  | error _ r' =>
    rw [accepted_of_error h, accepted_of_error h]
    exact (Nat.zero_add _).symm

end Replica

namespace GraphReplica

open Event

variable {g : GraphReplica} {e : Event}

@[simp] theorem withCopy_self (g : GraphReplica) (k : Kind) : g.withCopy (g.replica k) k = g := by
  cases k <;> rfl

/-! ## One event -/

/-- An event for one copy changes this copy as if it stood alone, and the count if it is accepted. -/
theorem follow_own {k : Kind} (hkinds : ∀ l, (g.replica l).kind = l) (hkind : e.kind? = some k) :
    g.follow e = { g.withCopy ((g.replica k).follow e) k with
      applied := g.applied + accepted Replica.apply (g.replica k) [e] } := by
  rw [follow, apply_own hkinds hkind, Replica.follow]
  cases h : Replica.apply e (g.replica k) with
  | ok =>
    rw [accepted_of_ok h]
    rfl
  | error =>
    rw [accepted_of_error h]
    cases k <;> rfl

/-- The two copies keep their kinds. -/
theorem kinds_follow (hkinds : ∀ l, (g.replica l).kind = l) (e : Event) (l : Kind) :
    ((g.follow e).replica l).kind = l := by
  obtain ⟨name, rfl⟩ | ⟨k, hkind⟩ := e.task_or_kind
  · cases l with
    | node => exact hkinds .node
    | edge => exact hkinds .edge
  · rw [follow_own hkinds hkind]
    show ((g.withCopy _ k).replica l).kind = l
    rw [replica_withCopy]
    split
    · next hl => rw [(Replica.follow_frame _ e).1, hkinds, hl]
    · exact hkinds l

/-- An event is accepted and counted, or it fails at one copy and does not reach the rest. -/
theorem apply_cases (hkinds : ∀ l, (g.replica l).kind = l) (e : Event) :
    (∃ g', apply e g = .ok () g' ∧ g'.applied = g.applied + 1) ∨
      ∃ k failure copy, Replica.apply e (g.replica k) = .error failure copy ∧
        apply e g = .error failure (g.withCopy copy k) := by
  obtain ⟨name, rfl⟩ | ⟨k, hkind⟩ := e.task_or_kind
  · exact .inl ⟨_, apply_task name g, rfl⟩
  · rw [apply_own hkinds hkind]
    cases hcopy : Replica.apply e (g.replica k) with
    | ok => exact .inl ⟨_, rfl, rfl⟩
    | error failure copy => exact .inr ⟨k, failure, copy, hcopy, rfl⟩

/-- An event that is refused changes nothing at all. -/
theorem eq_of_refused (hkinds : ∀ l, (g.replica l).kind = l) {err : ReplicaError}
    {g' : GraphReplica} (h : apply e g = .error (.error err) g') : g' = g := by
  obtain ⟨_, hok, -⟩ | ⟨k, failure, copy, hcopy, herror⟩ := apply_cases hkinds e
  · rw [hok] at h
    cases h
  · rw [herror] at h
    cases h
    rw [Replica.eq_of_refused hcopy, withCopy_self]

/-! ## All events -/

/-- The replica whose copies were each told of their own events only. -/
def apart (g : GraphReplica) (es : List Event) : GraphReplica where
  nodes := (only .node es).foldl Replica.follow g.nodes
  edges := (only .edge es).foldl Replica.follow g.edges
  task := (news es).getLast?.getD g.task
  applied := g.applied + accepted Replica.apply g.nodes (only .node es) +
    accepted Replica.apply g.edges (only .edge es) + (news es).length

/-- News of a task concern neither copy. -/
theorem apart_cons_task (g : GraphReplica) (name : Option String) (es : List Event) :
    g.apart (.task name :: es) = (g.follow (.task name)).apart es := by
  have hnews : news (.task name :: es) = name :: news es := rfl
  have honly : ∀ k, only k (.task name :: es) = only k es := fun k => rfl
  have hfollow : g.follow (.task name) = { g with task := name, applied := g.applied + 1 } := rfl
  rw [apart, apart, hnews, honly, honly, hfollow, List.getLast?_cons, List.length_cons]
  dsimp only
  congr 1
  omega

/-- An event of a kind concerns the copy of this kind only. -/
theorem apart_cons_own {k : Kind} (hkinds : ∀ l, (g.replica l).kind = l)
    (hkind : e.kind? = some k) (es : List Event) : g.apart (e :: es) = (g.follow e).apart es := by
  have hother : ∀ l, l ≠ k → only l (e :: es) = only l es :=
    fun l hl => only_cons_of_other (kind?_ne hkind hl) es
  rw [follow_own hkinds hkind, apart, apart, news_cons_of_kind hkind]
  cases k with
  | node =>
    have hedges := hother .edge (by decide)
    rw [hedges, only_cons_of_kind hkind, Replica.accepted_cons, List.foldl_cons]
    dsimp only [withCopy, replica]
    congr 1
    omega
  | edge =>
    have hnodes := hother .node (by decide)
    rw [hnodes, only_cons_of_kind hkind, Replica.accepted_cons, List.foldl_cons]
    dsimp only [withCopy, replica]
    congr 1
    omega

/-- Following all events is following them apart. -/
theorem foldl_follow_eq_apart (hkinds : ∀ l, (g.replica l).kind = l) (es : List Event) :
    es.foldl follow g = g.apart es := by
  -- the first event is moved from the replica to the streams, whichever of them it belongs to
  induction es generalizing g with
  | nil => rfl
  | cons e es ih =>
    rw [List.foldl_cons, ih (kinds_follow hkinds e)]
    obtain ⟨name, rfl⟩ | ⟨k, hkind⟩ := e.task_or_kind
    · exact (apart_cons_task g name es).symm
    · exact (apart_cons_own hkinds hkind es).symm

theorem kinds_foldl_follow (hkinds : ∀ l, (g.replica l).kind = l) (es : List Event) (l : Kind) :
    ((es.foldl follow g).replica l).kind = l := by
  induction es generalizing g with
  | nil => exact hkinds l
  | cons e es ih => exact ih (kinds_follow hkinds e)

/-- The events that were accepted have been counted. -/
theorem applied_foldl_follow (hkinds : ∀ l, (g.replica l).kind = l) (es : List Event) :
    (es.foldl follow g).applied = g.applied + accepted apply g es := by
  induction es generalizing g with
  | nil => rfl
  | cons e es ih =>
    have hnext := ih (kinds_follow hkinds e)
    rw [List.foldl_cons, hnext, follow]
    obtain ⟨g', hok, hcount⟩ | ⟨k, failure, copy, -, herror⟩ := apply_cases hkinds e
    · rw [accepted_of_ok hok, hok]
      show g'.applied + accepted apply g' es = _
      omega
    · rw [accepted_of_error herror, herror]
      cases k <;> rfl

/-- Each copy is what its own events make of it, the task that runs is the last one there was news
of, and all that was accepted is counted; what is refused changes nothing. Streams that differ only in
how they interleave the events for the copies and the news have the same result. -/
theorem copies_apart (es : List Event) :
    ∃ g : GraphReplica, g = es.foldl follow {} ∧
      g.nodes = (only .node es).foldl Replica.follow
        { kind := .node, recordSize := Record.size NodeRecord } ∧
      g.edges = (only .edge es).foldl Replica.follow
        { kind := .edge, recordSize := Record.size EdgeRecord } ∧
      g.task = (news es).getLast?.getD none ∧
      g.applied = accepted apply {} es ∧
      (∀ e err g', apply e g = .error (.error err) g' → g' = g) ∧
      ∀ fs, only .node fs = only .node es → only .edge fs = only .edge es → news fs = news es →
        fs.foldl follow {} = g := by
  have hkinds : ∀ l, (({} : GraphReplica).replica l).kind = l := by
    intro l
    cases l <;> rfl
  have hcount := applied_foldl_follow hkinds es
  have hkinds' := kinds_foldl_follow hkinds es
  have hapart := foldl_follow_eq_apart hkinds es
  -- both copies and the task are read off the replica that was fed apart
  refine ⟨es.foldl follow {}, rfl, ?_, ?_, ?_, ?_, ?_, ?_⟩
  · rw [hapart]
    rfl
  · rw [hapart]
    rfl
  · rw [hapart]
    rfl
  · rw [hcount]
    exact Nat.zero_add _
  · intro e err g' h
    exact eq_of_refused hkinds' h
  · intro fs hnodes hedges hnews
    rw [foldl_follow_eq_apart hkinds fs, hapart, apart, apart, hnodes, hedges, hnews]

/-- A baseline for the nodes, an update that the edges refuse, and the start of a task: in the
reverse order they have the same result. -/
theorem copies_apart_reversed :
    ∃ a b c : Event, a = .replaced .node 0 (.empty (Record.size NodeRecord)) ∧
      b = .slot .edge 0 (.empty (Record.size EdgeRecord)) ∧ c = .task (some "layout") ∧
      ∃ g : GraphReplica, g = [a, b, c].foldl follow {} ∧ [c, b, a].foldl follow {} = g ∧
        g.task = some "layout" ∧ g.applied = 2 := by
  refine ⟨_, _, _, rfl, rfl, rfl, ?_⟩
  obtain ⟨g, hg, -, -, htask, hcount, -, hinterleaved⟩ := copies_apart
    [.replaced .node 0 (.empty (Record.size NodeRecord)),
      .slot .edge 0 (.empty (Record.size EdgeRecord)), .task (some "layout")]
  exact ⟨g, hg, hinterleaved _ rfl rfl rfl, htask, hcount⟩

end GraphReplica

end LiveGraph
