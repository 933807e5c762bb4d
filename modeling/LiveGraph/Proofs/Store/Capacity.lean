import LiveGraph.Proofs.Store.History

/-!
# Capacities

The capacity of a store is a function of the number of its slots: none for no slots, and else the least
power of two with room for them, in whichever portions they were handed out. It changes in calls of `add`
only, and each change is announced by one event.

The capacity is found by a loop that doubles until there is room, or takes what is needed where doubling
would leave the range of sizes. `Rounds` is that loop round by round; it ends after 64 rounds at most.
-/

namespace LiveGraph

namespace Store

/-! ## Least powers of two -/

/-- The least power of two that is at least `n`. -/
structure LeastPower (n c : Nat) : Prop where
  power : ∃ k, c = Nat.pow 2 k
  le : n ≤ c
  least : ∀ k, n ≤ Nat.pow 2 k → c ≤ Nat.pow 2 k

/-- The capacity for so many slots: none, or the least power of two with room for them. -/
def Snug (len capacity : Nat) : Prop :=
  if len = 0 then capacity = 0 else LeastPower len capacity

theorem snug_zero : Snug 0 0 := by
  rw [Snug, if_pos rfl]

/-- The least power of two is unique. -/
theorem LeastPower.eq {n c c' : Nat} (h : LeastPower n c) (h' : LeastPower n c') : c = c' := by
  obtain ⟨k, hk⟩ := h.power
  obtain ⟨k', hk'⟩ := h'.power
  have hle := h.least k' (hk' ▸ h'.le)
  have hge := h'.least k (hk ▸ h.le)
  omega

/-- The snug capacity is determined by the length. -/
theorem Snug.eq {len c c' : Nat} (h : Snug len c) (h' : Snug len c') : c = c' := by
  unfold Snug at h h'
  by_cases hlen : len = 0
  · rw [if_pos hlen] at h h'
    rw [h, h']
  · rw [if_neg hlen] at h h'
    exact h.eq h'

/-- Further slots for which there is room leave the capacity right. -/
theorem Snug.extend {len count capacity : Nat} (h : Snug len capacity) (hcount : 0 < count)
    (hroom : len + count ≤ capacity) : Snug (len + count) capacity := by
  unfold Snug at h ⊢
  rw [if_neg (by omega)]
  split at h
  · omega
  · exact ⟨h.power, hroom, fun k hk => h.least k (by omega)⟩

/-! ## Doubling -/

/-- Doubling stops at the least power of two with room. The start must be a power of two itself, and
not beyond that one. -/
theorem leastPower_doubled {capacity needed : Nat} (hpower : ∃ k, capacity = Nat.pow 2 k)
    (hleast : ∀ k, needed ≤ Nat.pow 2 k → capacity ≤ Nat.pow 2 k) (hneeded : needed ≤ Nat.pow 2 63) :
    LeastPower needed (doubled capacity needed) := by
  obtain ⟨j, rfl⟩ := hpower
  generalize hcapacity : Nat.pow 2 j = capacity at hleast ⊢
  fun_induction doubled capacity needed generalizing j with
  | case1 capacity hlt h ih =>
    have hnext : Nat.pow 2 (j + 1) = 2 * capacity := by
      rw [← hcapacity, Nat.mul_comm]
      rfl
    refine ih (j + 1) hnext fun k hk => ?_
    -- a power with room is beyond this one, so it is at least the next
    have hlt' : Nat.pow 2 j < Nat.pow 2 k := hcapacity ▸ Nat.lt_of_lt_of_le hlt hk
    have hjk : j < k := (Nat.pow_lt_pow_iff_right (by decide)).1 hlt'
    rw [← hnext]
    exact Nat.pow_le_pow_right (by decide) hjk
  | case2 capacity hlt h =>
    -- the doubled capacity would be no size, which is beyond what is needed
    have hlimit : sizeLimit = 2 * Nat.pow 2 63 := by decide
    have hpos : 0 < capacity := by
      rw [← hcapacity]
      exact Nat.pow_pos (by decide)
    omega
  | case3 capacity hge => exact ⟨⟨j, hcapacity.symm⟩, Nat.le_of_not_lt hge, hleast⟩

/-- Growing for more slots than there is room for gives the capacity for that many. -/
theorem Snug.grow {len capacity needed : Nat} (h : Snug len capacity) (hfull : capacity < needed)
    (hneeded : needed ≤ Nat.pow 2 63) : Snug needed (doubled (max capacity 1) needed) := by
  unfold Snug at h ⊢
  rw [if_neg (by omega)]
  split at h
  · rw [h]
    exact leastPower_doubled ⟨0, rfl⟩ (fun k _ => Nat.pow_pos (by decide)) hneeded
  · obtain ⟨k, hk⟩ := h.power
    have hpos : 0 < capacity := by
      rw [hk]
      exact Nat.pow_pos (by decide)
    rw [Nat.max_eq_left hpos]
    exact leastPower_doubled ⟨k, hk⟩ (fun i hi => by omega) hneeded

/-- The loop that doubles, from a capacity on: the number of its rounds, and the capacity that it ends
with. All capacities on the way are sizes. -/
inductive Rounds (needed : Nat) : Nat → Nat → Nat → Prop
  /-- There is room, and the loop ends. -/
  | stop {capacity : Nat} (hsize : capacity < sizeLimit) (hroom : needed ≤ capacity) :
      Rounds needed capacity 0 capacity
  /-- There is no room. The double is tried next, or what is needed where the double is no size. -/
  | again {capacity n result : Nat} (hsize : capacity < sizeLimit) (hfull : capacity < needed)
      (hnext : Rounds needed ((mulSize? capacity 2).getD needed) n result) :
      Rounds needed capacity (n + 1) result

/-- The loop ends with what `doubled` says, after at most one round for each power of two that the
capacity has not reached. -/
theorem exists_rounds {capacity needed j : Nat} (hsize : capacity < sizeLimit)
    (hneeded : needed < sizeLimit) (hj : Nat.pow 2 j ≤ capacity) :
    ∃ n, n + j ≤ 64 ∧ Rounds needed capacity n (doubled capacity needed) := by
  have hj64 : j < 64 :=
    (Nat.pow_lt_pow_iff_right (by decide : 1 < 2)).1 (Nat.lt_of_le_of_lt hj hsize)
  fun_induction doubled capacity needed generalizing j with
  | case1 capacity hlt h ih =>
    have hnext : Nat.pow 2 (j + 1) ≤ 2 * capacity := by
      rw [Nat.mul_comm]
      exact Nat.mul_le_mul_right 2 hj
    have hj' : j + 1 < 64 :=
      (Nat.pow_lt_pow_iff_right (by decide : 1 < 2)).1 (Nat.lt_of_le_of_lt hnext h.2)
    obtain ⟨n, hn, hrounds⟩ := ih h.2 hnext hj'
    have hdouble : (mulSize? capacity 2).getD needed = 2 * capacity := by
      rw [mulSize?, Nat.mul_comm, if_pos h.2]
      rfl
    exact ⟨n + 1, by omega, .again hsize hlt (hdouble ▸ hrounds)⟩
  | case2 capacity hlt h =>
    have hpos : 0 < capacity := Nat.lt_of_lt_of_le (Nat.pow_pos (by decide)) hj
    -- a product that is no size is replaced by what is needed, which ends the loop
    have hbeyond : (mulSize? capacity 2).getD needed = needed := by
      rw [mulSize?, if_neg (by omega)]
      rfl
    refine ⟨1, by omega, .again hsize hlt ?_⟩
    rw [hbeyond]
    exact .stop hneeded (Nat.le_refl needed)
  | case3 capacity hge => exact ⟨0, by omega, .stop hsize (Nat.le_of_not_lt hge)⟩

/-! ## Runs -/

variable {ρ τ : Type} [Record ρ] [Inhabited τ]

/-- The replaced arrays among some events, with the capacity that is announced. -/
def replacements (events : List Event) : List (Nat × Snapshot) :=
  events.filterMap fun
    | .replaced _ capacity buffer => some (capacity, buffer)
    | _ => none

/-- Every operation keeps the capacity snug. -/
theorem Outcome.snug {s s' : Store ρ τ} {o : Operation ρ τ} {d : Option (Deed ρ)}
    {events : List Event} (h : Outcome s o d events s') (hsnug : Snug s.len s.capacity) :
    Snug s'.len s'.capacity := by
  cases h with
  | extended hcount _ hcap => exact hsnug.extend hcount hcap
  | @grown count _ _ hfull hfits =>
    have hle := (le_grownCapacity s (s.len + count)).1
    have hneeded : s.len + count ≤ arrayLimit := Nat.le_of_lt (Nat.lt_of_le_of_lt hle hfits.lt_arrayLimit)
    exact hsnug.grow hfull hneeded
  | deleted slot _ =>
    rw [release_eq]
    exact hsnug
  | _ => exact hsnug

omit [Inhabited τ] in
/-- The flush of a store replaces no array. -/
theorem WellFormed.replacements_flushEvents {s : Store ρ τ} (h : s.WellFormed) :
    replacements s.flushEvents = [] := by
  rw [replacements, List.filterMap_eq_nil_iff]
  intro e he
  obtain ⟨start, stop, hup, -⟩ := h.isUpdate_of_mem he
  rcases hup with rfl | ⟨rfl, -⟩
  · rfl
  · rfl

/-- The events of an operation announce its change of the capacity: one event if there is one, and then
the operation handed out slots, and no event else. -/
structure Announces (o : Operation ρ τ) (s s' : Store ρ τ) (events : List Event) : Prop where
  silent : s'.capacity = s.capacity → replacements events = []
  announced : s'.capacity ≠ s.capacity → (∃ count, o = .call (.add count)) ∧
    ∃ buffer, replacements events = [(s'.capacity, buffer)] ∧ buffer.capacity = s'.capacity

/-- An operation announces a new capacity exactly if it changes it. -/
theorem Outcome.announces {s s' : Store ρ τ} {o : Operation ρ τ} {d : Option (Deed ρ)}
    {events : List Event} (h : Outcome s o d events s') (hs : s.WellFormed) :
    Announces o s s' events := by
  have hkept : s'.capacity = s.capacity → replacements events = [] → Announces o s s' events :=
    fun hsame hnone => ⟨fun _ => hnone, fun hne => absurd hsame hne⟩
  cases h with
  | @grown count _ _ hfull _ =>
    have hle := (le_grownCapacity s (s.len + count)).1
    have hgrown : ({ s.grown (s.grownCapacity (s.len + count)) with len := s.len + count } :
      Store ρ τ).capacity = s.grownCapacity (s.len + count) := rfl
    refine ⟨fun hsame => ?_, fun _ => ⟨⟨count, rfl⟩, _, rfl, rfl⟩⟩
    rw [hgrown] at hsame
    omega
  | deleted slot _ =>
    refine hkept ?_ rfl
    rw [release_eq]
    rfl
  | published => exact hkept rfl hs.replacements_flushEvents
  | _ => exact hkept rfl rfl

/-- The capacity of a store in use, and what the next operation makes of it. -/
structure Sized (u : Usage ρ τ) : Prop where
  snug : Snug u.current.value.len u.current.value.capacity
  next : ∀ o, ∃ new, (u.next o).current.events = u.current.events ++ new.toArray ∧
    Announces o u.current.value (u.next o).current.value new

/-- The capacity is snug and announced after any usage. -/
theorem sized_usage {config : StoreConfig} (hv : config.Valid) (ops : List (Operation ρ τ)) :
    Sized (usage ({ config } : Store ρ τ) ops) := by
  obtain ⟨h, hsnug⟩ := usage_induction (ρ := ρ) (τ := τ) (P := fun s _ => Snug s.len s.capacity) hv
    snug_zero (fun _ hout hs => hout.snug hs) ops
  refine ⟨hsnug, fun o => ?_⟩
  obtain ⟨new, s', hcurrent, hout⟩ := h.outcome_next o
  rw [hcurrent]
  exact ⟨new, rfl, hout.announces h⟩

/-- The capacity of a store depends on the number of its slots only: at every point of every run it is the
least power of two with room for them, and each change of it is announced once. So it is wherever a store
grows within the range of sizes, even beyond what fits into memory. For any request the loop in which the
capacity is found ends, with room for the request, and leaves the range of sizes at no point. -/
theorem capacity_of_len {config : StoreConfig} (hv : config.Valid) (ops : List (Operation ρ τ)) :
    (∃ s₀ : Store ρ τ, Store.new config = .ok s₀ ∧ Sized (s₀.usage ops) ∧
      ∀ (config' : StoreConfig) (ops' : List (Operation ρ τ)), config'.Valid →
        (usage { config := config' } ops').current.value.len = (s₀.usage ops).current.value.len →
          (usage { config := config' } ops').current.value.capacity
            = (s₀.usage ops).current.value.capacity) ∧
      (∀ len capacity needed, Snug len capacity → capacity < needed → needed ≤ Nat.pow 2 63 →
        Snug needed (doubled (max capacity 1) needed)) ∧
      ∀ capacity needed, capacity < sizeLimit → needed < sizeLimit →
        needed ≤ doubled (max capacity 1) needed ∧
          ∃ n ≤ 64, Rounds needed (max capacity 1) n (doubled (max capacity 1) needed) := by
  refine ⟨⟨{ config }, new_eq_ok_iff.2 ⟨hv, rfl⟩, sized_usage hv ops, ?_⟩,
    fun _ _ _ hsnug => hsnug.grow, ?_⟩
  · intro config' ops' hv' hlen
    have hother := (sized_usage hv' ops').snug
    rw [hlen] at hother
    exact hother.eq (sized_usage hv ops).snug
  · intro capacity needed hsize hneeded
    have hstart : max capacity 1 < sizeLimit := Nat.max_lt.2 ⟨hsize, by decide⟩
    obtain ⟨n, hn, hrounds⟩ := exists_rounds hstart hneeded (j := 0) (Nat.le_max_right capacity 1)
    exact ⟨(le_doubled _ _).1, n, hn, hrounds⟩

/-- Three slots, of which one is deleted, and ten more: these do not fit where the deleted one was. -/
theorem capacity_of_thirteen :
    ({ blockSize := 2, maxModified := 1 } : StoreConfig).Valid ∧
      ∃ s₀ : Store NodeRecord Unit, Store.new { blockSize := 2, maxModified := 1 } = .ok s₀ ∧
        Sized (s₀.usage [.call (.add 3), .call (.set 1 none), .call (.add 10)]) ∧
        (s₀.usage [.call (.add 3), .call (.set 1 none), .call (.add 10)]).current.value.len = 13 ∧
        (s₀.usage [.call (.add 3), .call (.set 1 none), .call (.add 10)]).current.value.capacity = 16 := by
  have hv : ({ blockSize := 2, maxModified := 1 } : StoreConfig).Valid := by decide
  obtain ⟨s₀, hnew, hsized, -⟩ := (capacity_of_len (ρ := NodeRecord) (τ := Unit) hv
    [.call (.add 3), .call (.set 1 none), .call (.add 10)]).1
  obtain ⟨-, rfl⟩ := new_eq_ok_iff.1 hnew
  exact ⟨hv, _, hnew, hsized, by decide +kernel, by decide +kernel⟩

example : doubled 4 13 = 16 ∧ doubled 1 (Nat.pow 2 63) = Nat.pow 2 63 ∧
    doubled 1 (Nat.pow 2 63 + 1) = Nat.pow 2 63 + 1 := by
  decide +kernel

end Store

end LiveGraph
