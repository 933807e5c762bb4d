import LiveGraph.Proofs.Store.Convergence

/-!
# What is done with a store

A store is driven by operations, some of which it refuses. A `Store.Deed` is what an operation that
was answered did for its caller; the deeds so far are all that callers know of a store. What an
operation can do to a well-formed store is said once, by `Store.Outcome`: with which deed it ends, which
events it publishes and which store it leaves. By `Store.usage_induction`, what every outcome keeps holds
at every point of every run.
-/

namespace LiveGraph

namespace Store

variable {ρ τ : Type} [Record ρ]

/-! ## Operations and deeds -/

/-- Anything that can be asked of a store. -/
inductive Operation (ρ τ : Type)
  /-- Hand out slots, set one, or publish the changes. -/
  | call (c : Call ρ)
  /-- Change what is kept beside a slot. -/
  | amend (slot : Nat) (f : τ → τ)

/-- What a store did for a caller. -/
inductive Deed (ρ : Type)
  /-- It handed out the slots `first .. first + count`. -/
  | handedOut (first count : Nat)
  /-- It wrote a record into a slot. -/
  | written (slot : Nat) (r : ρ)
  /-- It deleted a slot. -/
  | deleted (slot : Nat)
  /-- It published the changes. -/
  | published
deriving DecidableEq, Repr

/-- A store in use: the store with the events it published, and its deeds, the last one in front. -/
structure Usage (ρ τ : Type) where
  current : Tracked (Store ρ τ)
  deeds : List (Deed ρ) := []

variable [Inhabited τ]

namespace Operation

/-- What the operation does. -/
def edit : Operation ρ τ → Edit Fault (Store ρ τ) Unit
  | call c => c.edit
  | amend slot f => modifyData slot f

/-- The operation asks for what the store can give. -/
def Admitted (s : Store ρ τ) : Operation ρ τ → Prop
  | call c => c.Admitted s
  | amend slot _ => slot < s.side.size

/-- The deed of an operation, if the store answers it. Changes beside a slot are nobody's concern. -/
def deed? (t : Tracked (Store ρ τ)) : Operation ρ τ → Option (Deed ρ)
  | call (.add count) => (Edit.answer? (Store.add count) t).map (.handedOut · count)
  | call (.set slot (some r)) =>
    (Edit.answer? (Store.set slot (some r)) t).map fun _ => .written slot r
  | call (.set slot none) => (Edit.answer? (Store.set slot none) t).map fun _ => .deleted slot
  | call .flush => (Edit.answer? Store.flush t).map fun _ => .published
  | amend _ _ => none

end Operation

/-- The next operation is tried. -/
def Usage.next (u : Usage ρ τ) (o : Operation ρ τ) : Usage ρ τ :=
  { current := o.edit.after u.current, deeds := (o.deed? u.current).toList ++ u.deeds }

/-- A store after some operations, those that it refuses included. -/
def usage (s : Store ρ τ) (ops : List (Operation ρ τ)) : Usage ρ τ :=
  ops.foldl Usage.next { current := ⟨s, #[]⟩ }

/-! ## Outcomes -/

/-- How an operation ends: its deed, the events it publishes, and the store it leaves. -/
inductive Outcome (s : Store ρ τ) :
    Operation ρ τ → Option (Deed ρ) → List Event → Store ρ τ → Prop
  /-- What the store cannot give is refused, and nothing changes. -/
  | refused {o : Operation ρ τ} (h : ¬ o.Admitted s) : Outcome s o none [] s
  /-- A single slot is taken from the free ones. -/
  | recycled {slot : Nat} {free : List Nat} (hfree : s.free = slot :: free) :
      Outcome s (.call (.add 1)) (some (.handedOut slot 1)) [] (s.recycled slot free)
  /-- The next slots are handed out. -/
  | extended {count : Nat} (hcount : 0 < count) (hfree : count = 1 → s.free = [])
      (hcap : s.len + count ≤ s.capacity) :
      Outcome s (.call (.add count)) (some (.handedOut s.len count)) []
        { s with len := s.len + count }
  /-- The next slots are handed out, for which the array has to grow. -/
  | grown {count : Nat} (hcount : 0 < count) (hfree : count = 1 → s.free = [])
      (hfull : s.capacity < s.len + count)
      (hfits : Feasible ρ (s.grownCapacity (s.len + count))) :
      Outcome s (.call (.add count)) (some (.handedOut s.len count))
        [.replaced (Record.kind ρ) (s.grownCapacity (s.len + count))
          (s.grown (s.grownCapacity (s.len + count))).image]
        { s.grown (s.grownCapacity (s.len + count)) with len := s.len + count }
  /-- A record is written. -/
  | written (slot : Nat) (r : ρ) (hslot : slot < s.len) (hfree : s.isFree.getD slot false = false) :
      Outcome s (.call (.set slot (some r))) (some (.written slot r)) []
        ((s.put slot (Record.encode r)).mark slot)
  /-- A slot is deleted. -/
  | deleted (slot : Nat) (hslot : slot < s.len) :
      Outcome s (.call (.set slot none)) (some (.deleted slot)) []
        (((s.put slot (Record.encode (Record.markDeleted (s.recordAt slot)))).release slot).mark slot)
  /-- The changes are published. -/
  | published : Outcome s (.call .flush) (some .published) s.flushEvents s.flushed
  /-- What is kept beside a slot changes. -/
  | amended (slot : Nat) (f : τ → τ) (hslot : slot < s.side.size) :
      Outcome s (.amend slot f) none [] { s with side := s.side.modify slot f }

omit [Record ρ] [Inhabited τ] in
/-- The grown capacity is enough, and no smaller than before. -/
theorem le_grownCapacity (s : Store ρ τ) (needed : Nat) :
    needed ≤ s.grownCapacity needed ∧ s.capacity ≤ s.grownCapacity needed := by
  have hdoubled := le_doubled (max s.capacity 1) needed
  exact ⟨hdoubled.1, Nat.le_trans (Nat.le_max_left _ _) hdoubled.2⟩

/-- Outcomes are steps. -/
theorem Outcome.step {s s' : Store ρ τ} {o : Operation ρ τ} {d : Option (Deed ρ)}
    {events : List Event} (h : Outcome s o d events s') : Step s events s' := by
  cases h with
  | refused _ => exact .refuse
  | recycled hfree => exact .recycle hfree
  | extended _ _ hcap => exact .extend (Nat.le_add_right _ _) hcap
  | @grown count _ _ _ hfits =>
    have hle := le_grownCapacity s (s.len + count)
    exact .grow (Nat.le_add_right _ _) hle.2 hle.1 hfits
  | written slot r hslot hfree => exact .write slot r hslot hfree
  | deleted slot hslot => exact .delete slot hslot
  | published => exact .flush
  | amended slot f _ => exact .data slot f

/-- The configuration never changes. -/
theorem Outcome.config_eq {s s' : Store ρ τ} {o : Operation ρ τ} {d : Option (Deed ρ)}
    {events : List Event} (h : Outcome s o d events s') : s'.config = s.config := by
  cases h with
  | deleted slot _ =>
    rw [release_eq]
    rfl
  | _ => rfl

/-- No slots are never handed out. -/
theorem add_zero (s : Store ρ τ) (events : Array Event) :
    add 0 ⟨s, events⟩ = .error (.emptyRequest (Record.kind ρ)) ⟨s, events⟩ := by
  rw [add, if_pos rfl]
  rfl

/-- Slots are handed out exactly if there is room for them. -/
theorem WellFormed.add_ok_iff {s : Store ρ τ} (h : s.WellFormed) (count : Nat)
    (events : Array Event) :
    (∃ first t, add count ⟨s, events⟩ = .ok first t) ↔ s.HasRoom count := by
  have hcases := h.add_cases count events
  constructor
  · rintro ⟨first, t, heq⟩
    -- a request for nothing is refused
    have hne : count ≠ 0 := by
      rintro rfl
      rw [add_zero] at heq
      cases heq
    rw [heq] at hcases
    cases hcases with
    | recycled hone hfree => exact ⟨hne, .inl ⟨hone, by rw [hfree]; exact List.cons_ne_nil _ _⟩⟩
    -- what fits into the capacity is a size
    | extended _ hcap =>
      exact ⟨hne, .inr ⟨Nat.lt_of_le_of_lt hcap h.fits.lt_sizeLimit, .inl hcap⟩⟩
    | grown _ _ hfits =>
      have hle := (le_grownCapacity s (s.len + count)).1
      exact ⟨hne, .inr ⟨Nat.lt_of_le_of_lt hle hfits.lt_sizeLimit, .inr hfits.fits⟩⟩
  · intro hroom
    generalize add count ⟨s, events⟩ = result at hcases
    cases hcases with
    | refused f hno => exact absurd hroom hno
    | recycled _ _ => exact ⟨_, _, rfl⟩
    | extended _ _ => exact ⟨_, _, rfl⟩
    | grown _ _ _ => exact ⟨_, _, rfl⟩

/-- What handing out slots comes to. -/
private theorem outcome_add {s : Store ρ τ} (h : s.WellFormed) (count : Nat) (events : Array Event) :
    ∃ new s', (Edit.after (add count) ⟨s, events⟩) = ⟨s', events ++ new.toArray⟩ ∧
      Outcome s (.call (.add count)) ((Edit.answer? (add count) ⟨s, events⟩).map (.handedOut · count))
        new s' := by
  by_cases hzero : count = 0
  · subst hzero
    rw [Edit.after_of_error (add_zero s events), Edit.answer?_of_error (add_zero s events)]
    exact ⟨[], s, by simp, .refused fun hroom => hroom.1 rfl⟩
  have hcount : 0 < count := Nat.pos_of_ne_zero hzero
  have hcases := h.add_cases count events
  rw [Edit.after, Edit.answer?]
  generalize add count ⟨s, events⟩ = result at hcases ⊢
  cases hcases with
  | refused f hroom => exact ⟨[], s, by simp, .refused hroom⟩
  | recycled hone hfree =>
    subst hone
    exact ⟨[], _, by simp, .recycled hfree⟩
  | extended hfree hcap => exact ⟨[], _, by simp, .extended hcount hfree hcap⟩
  | grown hfree hfull hfits => exact ⟨[_], _, by simp, .grown hcount hfree hfull hfits⟩

private theorem outcome_write {s : Store ρ τ} (h : s.WellFormed) (slot : Nat) (r : ρ)
    (events : Array Event) :
    ∃ s', (Edit.after (set slot (some r)) ⟨s, events⟩) = ⟨s', events⟩ ∧
      Outcome s (.call (.set slot (some r)))
        ((Edit.answer? (set slot (some r)) ⟨s, events⟩).map fun _ => .written slot r) [] s' := by
  by_cases hslot : slot < s.len
  · cases hfree : s.isFree.getD slot false with
    | false =>
      have heq := h.set_some r hslot hfree events
      rw [Edit.after_of_ok heq, Edit.answer?_of_ok heq]
      exact ⟨_, rfl, .written slot r hslot hfree⟩
    | true =>
      have heq := set_free r hslot hfree events
      rw [Edit.after_of_error heq, Edit.answer?_of_error heq]
      refine ⟨s, rfl, .refused fun hadm => ?_⟩
      rw [hadm.2] at hfree
      cases hfree
  · have heq := set_beyond (some r) (Nat.le_of_not_lt hslot) events
    rw [Edit.after_of_error heq, Edit.answer?_of_error heq]
    exact ⟨s, rfl, .refused fun hadm => hslot hadm.1⟩

private theorem outcome_delete {s : Store ρ τ} (h : s.WellFormed) (slot : Nat) (events : Array Event) :
    ∃ s', (Edit.after (set slot (none : Option ρ)) ⟨s, events⟩) = ⟨s', events⟩ ∧
      Outcome s (.call (.set slot none))
        ((Edit.answer? (set slot (none : Option ρ)) ⟨s, events⟩).map fun _ => .deleted slot) [] s' := by
  by_cases hslot : slot < s.len
  · have heq := h.set_none hslot events
    rw [Edit.after_of_ok heq, Edit.answer?_of_ok heq]
    exact ⟨_, rfl, .deleted slot hslot⟩
  · have heq := set_beyond (none : Option ρ) (Nat.le_of_not_lt hslot) events
    rw [Edit.after_of_error heq, Edit.answer?_of_error heq]
    exact ⟨s, rfl, .refused hslot⟩

/-- Every operation on a well-formed store has an outcome. -/
theorem WellFormed.outcome {s : Store ρ τ} (h : s.WellFormed) (o : Operation ρ τ)
    (events : Array Event) :
    ∃ new s', o.edit.after ⟨s, events⟩ = ⟨s', events ++ new.toArray⟩ ∧
      Outcome s o (o.deed? ⟨s, events⟩) new s' := by
  cases o with
  | call c =>
    cases c with
    | add count =>
      have hafter : (Operation.call (.add count)).edit.after ⟨s, events⟩
          = Edit.after (add count) ⟨s, events⟩ := Edit.after_discard _ _
      rw [hafter]
      exact outcome_add h count events
    | set slot value =>
      cases value with
      | some r =>
        obtain ⟨s', hafter, hout⟩ := outcome_write h slot r events
        exact ⟨[], s', by rw [Array.append_empty]; exact hafter, hout⟩
      | none =>
        obtain ⟨s', hafter, hout⟩ := outcome_delete h slot events
        exact ⟨[], s', by rw [Array.append_empty]; exact hafter, hout⟩
    | flush =>
      have heq := h.flush_eq events
      refine ⟨s.flushEvents, s.flushed, Edit.after_of_ok heq, ?_⟩
      rw [Operation.deed?, Edit.answer?_of_ok heq]
      exact .published
  -- the data beside a slot is there, or the change is refused
  | amend slot f =>
    have heq := modifyData_eq s slot f events
    by_cases hslot : slot < s.side.size
    · rw [if_neg (Nat.not_le_of_lt hslot)] at heq
      exact ⟨[], _, by rw [Array.append_empty]; exact Edit.after_of_ok heq, .amended slot f hslot⟩
    · rw [if_pos (Nat.le_of_not_lt hslot)] at heq
      exact ⟨[], s, by rw [Array.append_empty]; exact Edit.after_of_error heq, .refused hslot⟩

/-! ## Runs -/

/-- Every operation on a store in use has an outcome. -/
theorem WellFormed.outcome_next {u : Usage ρ τ} (h : u.current.value.WellFormed)
    (o : Operation ρ τ) :
    ∃ new s', (u.next o).current = ⟨s', u.current.events ++ new.toArray⟩ ∧
      Outcome u.current.value o (o.deed? u.current) new s' :=
  h.outcome o u.current.events

theorem WellFormed.next {u : Usage ρ τ} (h : u.current.value.WellFormed) (o : Operation ρ τ) :
    (u.next o).current.value.WellFormed := by
  obtain ⟨new, s', hcurrent, hout⟩ := h.outcome_next o
  rw [hcurrent]
  exact hout.step.wellFormed h

/-- What holds of an empty store without deeds, and is kept by every outcome, holds at every point of
every run; and the store is well-formed there. -/
theorem usage_induction {P : Store ρ τ → List (Deed ρ) → Prop} {config : StoreConfig}
    (hv : config.Valid) (hempty : P { config } [])
    (houtcome : ∀ {s s' : Store ρ τ} {o : Operation ρ τ} {d : Option (Deed ρ)} {events : List Event}
      {deeds : List (Deed ρ)}, s.WellFormed → Outcome s o d events s' → P s deeds →
        P s' (d.toList ++ deeds)) (ops : List (Operation ρ τ)) :
    (usage ({ config } : Store ρ τ) ops).current.value.WellFormed ∧
      P (usage ({ config } : Store ρ τ) ops).current.value (usage ({ config } : Store ρ τ) ops).deeds := by
  have hgo : ∀ (ops : List (Operation ρ τ)) (u : Usage ρ τ), u.current.value.WellFormed →
      P u.current.value u.deeds → (ops.foldl Usage.next u).current.value.WellFormed ∧
        P (ops.foldl Usage.next u).current.value (ops.foldl Usage.next u).deeds := by
    intro ops
    induction ops with
    | nil => exact fun _ h hP => ⟨h, hP⟩
    | cons o ops ih =>
      intro u h hP
      obtain ⟨new, s', hcurrent, hout⟩ := h.outcome_next o
      apply ih _ (h.next o)
      rw [hcurrent]
      exact houtcome h hout hP
  exact hgo ops _ (wellFormed_empty hv) hempty

/-- Every usage leads to a well-formed store. -/
theorem wellFormed_usage {config : StoreConfig} (hv : config.Valid) (ops : List (Operation ρ τ)) :
    (usage ({ config } : Store ρ τ) ops).current.value.WellFormed :=
  (usage_induction (P := fun _ _ => True) hv trivial (fun _ _ _ => trivial) ops).1

theorem usage_concat (s : Store ρ τ) (ops : List (Operation ρ τ)) (o : Operation ρ τ) :
    usage s (ops ++ [o]) = (usage s ops).next o := by
  unfold usage
  rw [List.foldl_append]
  rfl

/-- What holds of an empty store that has published nothing, and is kept by every step with the events it
publishes, holds at every point of every run; and the store is well-formed there. -/
theorem current_induction {P : Tracked (Store ρ τ) → Prop} {config : StoreConfig}
    (hv : config.Valid) (hempty : P ⟨{ config }, #[]⟩)
    (hstep : ∀ {t : Tracked (Store ρ τ)} {s' : Store ρ τ} {new : List Event}, t.value.WellFormed →
      Step t.value new s' → P t → P ⟨s', t.events ++ new.toArray⟩) (ops : List (Operation ρ τ)) :
    (usage ({ config } : Store ρ τ) ops).current.value.WellFormed ∧
      P (usage ({ config } : Store ρ τ) ops).current := by
  have hgo : ∀ (ops : List (Operation ρ τ)) (u : Usage ρ τ), u.current.value.WellFormed →
      P u.current → (ops.foldl Usage.next u).current.value.WellFormed ∧
        P (ops.foldl Usage.next u).current := by
    intro ops
    induction ops with
    | nil => exact fun _ h hP => ⟨h, hP⟩
    | cons o ops ih =>
      intro u h hP
      obtain ⟨new, s', hcurrent, hout⟩ := h.outcome_next o
      apply ih _ (h.next o)
      rw [hcurrent]
      exact hstep h hout.step hP
  exact hgo ops _ (wellFormed_empty hv) hempty

/-- A view of a store in use that follows every operation follows every run. -/
theorem foldl_view {α : Type} (next : α → Operation ρ τ → α) (view : Usage ρ τ → α)
    (hnext : ∀ (u : Usage ρ τ) (o : Operation ρ τ), u.current.value.WellFormed →
      next (view u) o = view (u.next o))
    (ops : List (Operation ρ τ)) {u : Usage ρ τ} (h : u.current.value.WellFormed) :
    ops.foldl next (view u) = view (ops.foldl Usage.next u) := by
  induction ops generalizing u with
  | nil => rfl
  | cons o ops ih => rw [List.foldl_cons, List.foldl_cons, hnext u o h, ih (h.next o)]

end Store

end LiveGraph
