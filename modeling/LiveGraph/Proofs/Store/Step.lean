import LiveGraph.Proofs.Store.Flush

/-!
# The steps of a store

What the calls on a store can do, said once: `Store.Step` lists the changes that a call can make to a
well-formed store, with the events it publishes. A call that is refused changes nothing. Invariants
are proved on the steps and hold for all calls.
-/

namespace LiveGraph

namespace Store

variable {ρ τ : Type} [Record ρ]

/-! ## Writing and deleting -/

/-- Every slot that was handed out has bytes to be written. -/
theorem WellFormed.write_eq {s : Store ρ τ} (h : s.WellFormed) {slot : Nat} (r : ρ)
    (hslot : slot < s.len) (events : Array Event) :
    Store.write slot r ⟨s, events⟩ = .ok () ⟨s.put slot (Record.encode r), events⟩ := by
  have hbytes : s.hasBytes slot = true := h.hasBytes_eq (Nat.lt_of_lt_of_le hslot h.len_le)
  rw [Store.write, Edit.read_bind, hbytes]
  rfl

/-- Writing a record into a slot that is in use. -/
theorem WellFormed.set_some {s : Store ρ τ} (h : s.WellFormed) {slot : Nat} (r : ρ)
    (hslot : slot < s.len) (hfree : s.isFree.getD slot false = false) (events : Array Event) :
    set slot (some r) ⟨s, events⟩ = .ok () ⟨(s.put slot (Record.encode r)).mark slot, events⟩ := by
  rw [set, Edit.read_bind, if_neg (Nat.not_le_of_lt hslot)]
  dsimp only
  rw [Edit.read_bind, hfree, if_neg Bool.false_ne_true,
    Edit.bind_of_ok (h.write_eq r hslot events)]
  rfl

/-- Deleting a slot. -/
theorem WellFormed.set_none {s : Store ρ τ} (h : s.WellFormed) {slot : Nat} (hslot : slot < s.len)
    (events : Array Event) :
    set slot none ⟨s, events⟩
      = .ok () ⟨((s.put slot (Record.encode (Record.markDeleted (s.recordAt slot)))).release
          slot).mark slot, events⟩ := by
  have hrecord : (Edit.ofExcept (s.record slot) : Edit Fault (Store ρ τ) _) ⟨s, events⟩
      = .ok (s.recordAt slot) ⟨s, events⟩ := by
    rw [h.record_eq (Nat.lt_of_lt_of_le hslot h.len_le)]
    rfl
  rw [set, Edit.read_bind, if_neg (Nat.not_le_of_lt hslot)]
  dsimp only
  rw [Edit.read_bind, Edit.bind_of_ok hrecord,
    Edit.bind_of_ok (h.write_eq (Record.markDeleted (s.recordAt slot)) hslot events)]
  rfl

/-- A slot that was never handed out is not set. -/
theorem set_beyond {s : Store ρ τ} {slot : Nat} (value : Option ρ) (h : s.len ≤ slot)
    (events : Array Event) :
    set slot value ⟨s, events⟩ = .error (.neverAllocated slot s.len) ⟨s, events⟩ := by
  rw [set, Edit.read_bind, if_pos h]
  rfl

/-- A free slot is not written. -/
theorem set_free {s : Store ρ τ} {slot : Nat} (r : ρ) (hslot : slot < s.len)
    (hfree : s.isFree.getD slot false = true) (events : Array Event) :
    set slot (some r) ⟨s, events⟩ = .error (.freeSlot slot) ⟨s, events⟩ := by
  rw [set, Edit.read_bind, if_neg (Nat.not_le_of_lt hslot)]
  dsimp only
  rw [Edit.read_bind, hfree, if_pos rfl]
  rfl

omit [Record ρ] in
theorem modifyData_eq (s : Store ρ τ) (slot : Nat) (f : τ → τ) (events : Array Event) :
    modifyData slot f ⟨s, events⟩
      = if s.side.size ≤ slot then .error .outOfRange ⟨s, events⟩
        else .ok () ⟨{ s with side := s.side.modify slot f }, events⟩ := by
  rw [modifyData, Edit.read_bind]
  by_cases hslot : s.side.size ≤ slot
  · rw [if_pos hslot, if_pos hslot]
    rfl
  · rw [if_neg hslot, if_neg hslot]
    rfl

/-! ## Steps -/

variable [Inhabited τ]

/-- One step of a store: what it was, the events it publishes, and what it becomes. -/
inductive Step : Store ρ τ → List Event → Store ρ τ → Prop
  /-- A call is refused. -/
  | refuse {s : Store ρ τ} : Step s [] s
  /-- A free slot is handed out again. -/
  | recycle {s : Store ρ τ} {slot : Nat} {free : List Nat} (hfree : s.free = slot :: free) :
      Step s [] (s.recycled slot free)
  /-- Further slots are handed out, for which there is room. -/
  | extend {s : Store ρ τ} {len : Nat} (hlen : s.len ≤ len) (hcap : len ≤ s.capacity) :
      Step s [] { s with len }
  /-- The array grows, and further slots are handed out. -/
  | grow {s : Store ρ τ} {len capacity : Nat} (hlen : s.len ≤ len) (hcap : s.capacity ≤ capacity)
      (hroom : len ≤ capacity) (hfits : Feasible ρ capacity) :
      Step s [.replaced (Record.kind ρ) capacity (s.grown capacity).image]
        { s.grown capacity with len }
  /-- A record is written. -/
  | write {s : Store ρ τ} (slot : Nat) (r : ρ) (hslot : slot < s.len)
      (hfree : s.isFree.getD slot false = false) :
      Step s [] ((s.put slot (Record.encode r)).mark slot)
  /-- A slot is deleted. -/
  | delete {s : Store ρ τ} (slot : Nat) (hslot : slot < s.len) :
      Step s [] (((s.put slot (Record.encode (Record.markDeleted (s.recordAt slot)))).release
        slot).mark slot)
  /-- What is kept beside a slot changes. -/
  | data {s : Store ρ τ} (slot : Nat) (f : τ → τ) :
      Step s [] { s with side := s.side.modify slot f }
  /-- The changes are published. -/
  | flush {s : Store ρ τ} : Step s s.flushEvents s.flushed

/-- Every step keeps the store well-formed. -/
theorem Step.wellFormed {s s' : Store ρ τ} {events : List Event} (hs : Step s events s')
    (h : s.WellFormed) : s'.WellFormed := by
  cases hs with
  | refuse => exact h
  | recycle hfree => exact h.recycled hfree
  | extend hlen hcap => exact h.extend hlen hcap
  | grow hlen hcap hroom hfits => exact (h.grown hcap hfits).extend hlen hroom
  | write slot r hslot _ => exact (h.put _ _).mark hslot
  | delete slot hslot =>
    apply WellFormed.mark
    · exact WellFormed.release (h.put _ _) hslot
    · rw [len_release]
      exact hslot
  | data slot f => exact h.modifySide slot f
  | flush => exact h.flushed

/-! ## Handing out slots -/

/-- Doubling reaches what is needed and never shrinks. -/
theorem le_doubled (capacity needed : Nat) :
    needed ≤ doubled capacity needed ∧ capacity ≤ doubled capacity needed := by
  fun_induction doubled capacity needed with
  | case1 capacity hlt h ih => exact ⟨ih.1, by omega⟩
  | case2 capacity hlt h => exact ⟨Nat.le_refl _, Nat.le_of_lt hlt⟩
  | case3 capacity hge => exact ⟨Nat.le_of_not_lt hge, Nat.le_refl _⟩

/-- Doubling leads from a power of two to another one, unless what is needed is beyond the limit. -/
theorem power_doubled {capacity needed : Nat} (hpower : ∃ k, capacity = Nat.pow 2 k)
    (hlt : doubled capacity needed < arrayLimit) : ∃ k, doubled capacity needed = Nat.pow 2 k := by
  fun_induction doubled capacity needed with
  | case1 capacity hless h ih =>
    obtain ⟨k, rfl⟩ := hpower
    exact ih ⟨k + 1, Nat.mul_comm 2 _⟩ hlt
  | case2 capacity hless h =>
    have hlimit : sizeLimit = 2 * arrayLimit := by decide
    obtain ⟨k, hk⟩ := hpower
    have hpos : 0 < capacity := hk ▸ Nat.pow_pos (by decide)
    omega
  | case3 capacity hge => exact hpower

/-- The capacity that a store grows to for so many slots. -/
def grownCapacity (s : Store ρ τ) (needed : Nat) : Nat := doubled (max s.capacity 1) needed

omit [Inhabited τ] in
/-- A store can have the capacity that it grows to, if there is memory for it. -/
theorem WellFormed.feasible_grownCapacity {s : Store ρ τ} (h : s.WellFormed) {needed : Nat}
    (hfits : s.grownCapacity needed * Record.sideSize ρ < arrayLimit) :
    Feasible ρ (s.grownCapacity needed) := by
  refine ⟨.inr (power_doubled ?_ ?_), hfits⟩
  · rcases h.fits.power with hzero | ⟨k, hk⟩
    · exact ⟨0, by rw [hzero]; rfl⟩
    · have hpos : 1 ≤ s.capacity := hk ▸ Nat.pow_pos (by decide)
      exact ⟨k, by rw [Nat.max_eq_left hpos, hk]⟩
  · exact Nat.lt_of_le_of_lt (Nat.le_mul_of_pos_right _ (sideSize_pos ρ)) hfits

/-- There are slots for the request: a free one, or room, or memory to grow. -/
def HasRoom (s : Store ρ τ) (count : Nat) : Prop :=
  count ≠ 0 ∧ (count = 1 ∧ s.free ≠ [] ∨ s.len + count < sizeLimit ∧
    (s.len + count ≤ s.capacity ∨
      s.grownCapacity (s.len + count) * Record.sideSize ρ < arrayLimit))

/-- How a request for slots ends. -/
inductive AddOutcome (s : Store ρ τ) (count : Nat) (events : Array Event) :
    EStateM.Result Fault (Tracked (Store ρ τ)) Nat → Prop
  /-- It is refused, for lack of room. -/
  | refused (f : Fault) (hroom : ¬ s.HasRoom count) : AddOutcome s count events (.error f ⟨s, events⟩)
  /-- It gets the slot that was freed last. -/
  | recycled {slot : Nat} {free : List Nat} (hcount : count = 1) (hfree : s.free = slot :: free) :
      AddOutcome s count events (.ok slot ⟨s.recycled slot free, events⟩)
  /-- It gets the next slots. -/
  | extended (hfree : count = 1 → s.free = []) (hcap : s.len + count ≤ s.capacity) :
      AddOutcome s count events (.ok s.len ⟨{ s with len := s.len + count }, events⟩)
  /-- It gets the next slots, for which the array had to grow. -/
  | grown (hfree : count = 1 → s.free = []) (hfull : s.capacity < s.len + count)
      (hfits : Feasible ρ (s.grownCapacity (s.len + count))) :
      AddOutcome s count events
        (.ok s.len ⟨{ s.grown (s.grownCapacity (s.len + count)) with len := s.len + count },
          events.push (.replaced (Record.kind ρ) (s.grownCapacity (s.len + count))
            (s.grown (s.grownCapacity (s.len + count))).image)⟩)

/-- Growing fails only where the data beside the records would be too large for an array. -/
theorem WellFormed.grow_eq {s : Store ρ τ} (h : s.WellFormed) (needed : Nat) (events : Array Event) :
    grow needed ⟨s, events⟩
      = if s.grownCapacity needed * Record.sideSize ρ < arrayLimit
        then .ok () ⟨s.grown (s.grownCapacity needed), events.push (.replaced (Record.kind ρ)
          (s.grownCapacity needed) (s.grown (s.grownCapacity needed)).image)⟩
        else .error .overflow ⟨s, events⟩ := by
  have hcap : s.capacity ≤ s.grownCapacity needed :=
    Nat.le_trans (Nat.le_max_left _ _) (le_doubled _ _).2
  have hdoubled : doubled (max s.capacity 1) needed = s.grownCapacity needed := rfl
  rw [grow, Edit.read_bind, hdoubled]
  by_cases hfits : s.grownCapacity needed * Record.sideSize ρ < arrayLimit
  · have hsnap := (h.grown hcap (h.feasible_grownCapacity hfits)).snapshot_eq
    have hfit : fitsArray (s.grownCapacity needed) (Record.sideSize ρ) = true := decide_eq_true hfits
    rw [if_pos hfits, hfit]
    show (Edit.ofExcept (s.grown (s.grownCapacity needed)).snapshot >>= fun buffer =>
      Edit.publish (.replaced (Record.kind ρ) (s.grownCapacity needed) buffer))
        ⟨s.grown (s.grownCapacity needed), events⟩ = _
    rw [hsnap]
    rfl
  · have hfit : fitsArray (s.grownCapacity needed) (Record.sideSize ρ) = false := decide_eq_false hfits
    rw [if_neg hfits, hfit]
    rfl

/-- The outcomes of a request for slots. -/
theorem WellFormed.add_cases {s : Store ρ τ} (h : s.WellFormed) (count : Nat)
    (events : Array Event) : AddOutcome s count events (add count ⟨s, events⟩) := by
  by_cases hzero : count = 0
  · have heq : add count ⟨s, events⟩ = .error (.emptyRequest (Record.kind ρ)) ⟨s, events⟩ := by
      rw [add, if_pos hzero]
      rfl
    rw [heq]
    exact .refused _ fun hroom => hroom.1 hzero
  rw [add, if_neg hzero]
  dsimp only
  rw [Edit.read_bind]
  -- only a request for one slot looks at the free list
  cases hfree : (if count = 1 then s.free else []) with
  | cons slot free =>
    have hone : count = 1 := by
      by_cases hone : count = 1
      · exact hone
      · rw [if_neg hone] at hfree
        cases hfree
    rw [if_pos hone] at hfree
    exact .recycled hone hfree
  | nil =>
    have hnone : count = 1 → s.free = [] := fun hone => by rwa [if_pos hone] at hfree
    by_cases hsum : s.len + count < sizeLimit
    · rw [addSize?, if_pos hsum]
      by_cases hfull : s.capacity < s.len + count
      · dsimp only
        rw [if_pos hfull]
        by_cases hfits : s.grownCapacity (s.len + count) * Record.sideSize ρ < arrayLimit
        · have hgrow := h.grow_eq (s.len + count) events
          rw [if_pos hfits] at hgrow
          rw [Edit.bind_of_ok hgrow]
          exact .grown hnone hfull (h.feasible_grownCapacity hfits)
        -- refused by the limit on arrays, so there was no room
        · have hgrow := h.grow_eq (s.len + count) events
          rw [if_neg hfits] at hgrow
          rw [Edit.bind_of_error hgrow]
          refine .refused _ fun hroom => ?_
          rcases hroom.2 with ⟨hone, hne⟩ | ⟨-, hle | hfits'⟩
          · exact hne (hnone hone)
          · omega
          · exact hfits hfits'
      · dsimp only
        rw [if_neg hfull]
        exact .extended hnone (Nat.le_of_not_lt hfull)
    · rw [addSize?, if_neg hsum]
      refine .refused _ fun hroom => ?_
      rcases hroom.2 with ⟨hone, hne⟩ | ⟨hlt, -⟩
      · exact hne (hnone hone)
      · exact hsum hlt

/-! ## Calls are steps -/

/-- The edit makes one step of a well-formed store, whether it answers or fails. -/
def Stepping {α : Type} (x : Edit Fault (Store ρ τ) α) : Prop :=
  ∀ (s : Store ρ τ) (events : Array Event), s.WellFormed →
    ∃ new s', x.after ⟨s, events⟩ = ⟨s', events ++ new.toArray⟩ ∧ Step s new s'

private theorem stepping_of_quiet {s s' : Store ρ τ} {events : Array Event}
    {t : Tracked (Store ρ τ)} (ht : t = ⟨s', events⟩) (hs : Step s [] s') :
    ∃ new s', t = ⟨s', events ++ new.toArray⟩ ∧ Step s new s' :=
  ⟨[], s', by rw [ht, Array.append_empty], hs⟩

/-- Handing out slots is a step. -/
theorem stepping_add (count : Nat) : Stepping (add count : Edit Fault (Store ρ τ) Nat) := by
  intro s events h
  have hcases := h.add_cases count events
  rw [Edit.after]
  generalize add count ⟨s, events⟩ = result at hcases ⊢
  cases hcases with
  | refused f _ => exact stepping_of_quiet rfl .refuse
  | recycled _ hfree => exact stepping_of_quiet rfl (.recycle hfree)
  | extended _ hcap => exact stepping_of_quiet rfl (.extend (Nat.le_add_right _ _) hcap)
  | grown _ _ hfits =>
    have hdoubled := le_doubled (max s.capacity 1) (s.len + count)
    have hstep := Step.grow (s := s) (Nat.le_add_right s.len count)
      (Nat.le_trans (Nat.le_max_left _ _) hdoubled.2) hdoubled.1 hfits
    exact ⟨_, _, by rw [← Array.push_eq_append]; rfl, hstep⟩

/-- Writing and deleting are steps. -/
theorem stepping_set (slot : Nat) (value : Option ρ) :
    Stepping (set slot value : Edit Fault (Store ρ τ) Unit) := by
  intro s events h
  by_cases hslot : slot < s.len
  · cases value with
    | none =>
      rw [Edit.after_of_ok (h.set_none hslot events)]
      exact stepping_of_quiet rfl (.delete slot hslot)
    | some r =>
      cases hfree : s.isFree.getD slot false with
      | false =>
        rw [Edit.after_of_ok (h.set_some r hslot hfree events)]
        exact stepping_of_quiet rfl (.write slot r hslot hfree)
      | true =>
        rw [Edit.after_of_error (set_free r hslot hfree events)]
        exact stepping_of_quiet rfl .refuse
  · rw [Edit.after_of_error (set_beyond value (Nat.le_of_not_lt hslot) events)]
    exact stepping_of_quiet rfl .refuse

theorem stepping_modifyData (slot : Nat) (f : τ → τ) :
    Stepping (modifyData slot f : Edit Fault (Store ρ τ) Unit) := by
  intro s events _
  rw [Edit.after, modifyData_eq]
  by_cases hslot : s.side.size ≤ slot
  · rw [if_pos hslot]
    exact stepping_of_quiet rfl .refuse
  · rw [if_neg hslot]
    exact stepping_of_quiet rfl (.data slot f)

theorem stepping_flush : Stepping (flush : Edit Fault (Store ρ τ) Unit) := by
  intro s events h
  rw [Edit.after_of_ok (h.flush_eq events)]
  exact ⟨_, _, rfl, .flush⟩

end Store

end LiveGraph
