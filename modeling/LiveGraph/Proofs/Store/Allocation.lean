import LiveGraph.Proofs.Store.Elements
import LiveGraph.Proofs.Store.History

/-!
# Who has which slot

A slot is in use from the deed that handed it out to the one that deleted it. The free list of a store
holds the slots that went out of use and did not come back, the one that did so last in front. So no
slot is ever handed out that is still in use, and a single slot that is asked for is the one that was
given back last.
-/

namespace LiveGraph

namespace Store

variable {ρ τ : Type}

/-! ## Slots in use -/

/-- The slot is in use: it was handed out, and not deleted since. -/
def inUse (slot : Nat) : List (Deed ρ) → Bool
  | [] => false
  | .handedOut first count :: deeds => (first ≤ slot && slot < first + count) || inUse slot deeds
  | .deleted x :: deeds => x != slot && inUse slot deeds
  | .written _ _ :: deeds => inUse slot deeds
  | .published :: deeds => inUse slot deeds

/-- How many deeds there were when the slot last went out of use, and none if it never did. -/
def vacatedAt (slot : Nat) : List (Deed ρ) → Nat
  | [] => 0
  | d :: deeds =>
    if inUse slot deeds && !inUse slot (d :: deeds) then deeds.length + 1 else vacatedAt slot deeds

/-- The slot went out of use and has not come back. -/
def Vacant (slot : Nat) (deeds : List (Deed ρ)) : Prop :=
  0 < vacatedAt slot deeds ∧ inUse slot deeds = false

theorem vacatedAt_le (slot : Nat) (deeds : List (Deed ρ)) : vacatedAt slot deeds ≤ deeds.length := by
  induction deeds with
  | nil => exact Nat.le_refl 0
  | cons d deeds ih =>
    rw [vacatedAt, List.length_cons]
    split
    · exact Nat.le_refl _
    · omega

/-- A slot that stays as it is, or comes into use, does not go out of use. -/
theorem vacatedAt_cons {slot : Nat} {d : Deed ρ} {deeds : List (Deed ρ)}
    (h : inUse slot deeds = true → inUse slot (d :: deeds) = true) :
    vacatedAt slot (d :: deeds) = vacatedAt slot deeds := by
  rw [vacatedAt]
  cases huse : inUse slot deeds with
  | false => simp
  | true => simp [h huse]

/-- Handing slots out puts none out of use. -/
theorem vacatedAt_handedOut (slot first count : Nat) (deeds : List (Deed ρ)) :
    vacatedAt slot (.handedOut first count :: deeds) = vacatedAt slot deeds := by
  apply vacatedAt_cons
  intro huse
  rw [inUse, huse, Bool.or_true]

/-! ## The free list -/

/-- The store knows what became of its slots: those below `len` that are not free are in use, and the
free ones stand in the order in which they went out of use, the last one in front. -/
structure Accounted (s : Store ρ τ) (deeds : List (Deed ρ)) : Prop where
  inUse_iff : ∀ x, inUse x deeds = true ↔ x < s.len ∧ x ∉ s.free
  untouched : ∀ x, s.len ≤ x → vacatedAt x deeds = 0
  vacated : ∀ x ∈ s.free, 0 < vacatedAt x deeds
  ordered : s.free.Pairwise fun x y => vacatedAt y deeds < vacatedAt x deeds

theorem accounted_empty (config : StoreConfig) : ({ config } : Store ρ τ).Accounted [] :=
  ⟨fun x => by simp [inUse], fun _ _ => rfl, by simp, by simp⟩

namespace Accounted

variable {s : Store ρ τ} {deeds : List (Deed ρ)}

/-- The free slots are the vacant ones. -/
theorem mem_free (ha : s.Accounted deeds) (x : Nat) : x ∈ s.free ↔ Vacant x deeds := by
  have huse := ha.inUse_iff x
  constructor
  · intro hin
    refine ⟨ha.vacated x hin, ?_⟩
    rw [Bool.eq_false_iff]
    exact fun hx => (huse.1 hx).2 hin
  · rintro ⟨hvacated, hout⟩
    have hlen : x < s.len := by
      apply Nat.lt_of_not_le
      intro hge
      rw [ha.untouched x hge] at hvacated
      exact Nat.lt_irrefl 0 hvacated
    rw [Bool.eq_false_iff] at hout
    exact Decidable.byContradiction fun hin => hout (huse.2 ⟨hlen, hin⟩)

/-- A deed that takes no slot into or out of use. -/
theorem unaffected (ha : s.Accounted deeds) {s' : Store ρ τ} {d : Deed ρ}
    (hd : ∀ x, inUse x (d :: deeds) = inUse x deeds) (hlen : s'.len = s.len)
    (hfree : s'.free = s.free) : s'.Accounted (d :: deeds) := by
  have hvacated : ∀ x, vacatedAt x (d :: deeds) = vacatedAt x deeds := by
    intro x
    apply vacatedAt_cons
    intro huse
    rw [hd, huse]
  refine ⟨fun x => ?_, fun x hx => ?_, fun x hx => ?_, ?_⟩
  · rw [hd, hlen, hfree]
    exact ha.inUse_iff x
  · rw [hvacated]
    exact ha.untouched x (hlen ▸ hx)
  · rw [hvacated]
    exact ha.vacated x (hfree ▸ hx)
  · simp only [hvacated, hfree]
    exact ha.ordered

/-- A slot in use is deleted. -/
theorem release (ha : s.Accounted deeds) {s' : Store ρ τ} {slot : Nat} (hslot : slot < s.len)
    (hin : slot ∉ s.free) (hlen : s'.len = s.len) (hfree : s'.free = slot :: s.free) :
    s'.Accounted (.deleted slot :: deeds) := by
  have huse : inUse slot deeds = true := (ha.inUse_iff slot).2 ⟨hslot, hin⟩
  have hnow : vacatedAt slot (.deleted slot :: deeds) = deeds.length + 1 := by
    rw [vacatedAt, huse, inUse, bne_self_eq_false]
    rfl
  -- the other slots do not go out of use
  have hother : ∀ x, x ≠ slot → vacatedAt x (.deleted slot :: deeds) = vacatedAt x deeds := by
    intro x hx
    apply vacatedAt_cons
    intro hxuse
    rw [inUse, hxuse, Bool.and_true]
    exact bne_iff_ne.2 (Ne.symm hx)
  have hmem : ∀ x ∈ s.free, x ≠ slot := by
    rintro x hx rfl
    exact hin hx
  refine ⟨fun x => ?_, fun x hx => ?_, fun x hx => ?_, ?_⟩
  · rw [hlen, hfree, inUse, Bool.and_eq_true, ha.inUse_iff, bne_iff_ne, List.mem_cons, not_or]
    constructor
    · rintro ⟨hne, hx, hout⟩
      exact ⟨hx, Ne.symm hne, hout⟩
    · rintro ⟨hx, hne, hout⟩
      exact ⟨Ne.symm hne, hx, hout⟩
  · have hne : x ≠ slot := by omega
    rw [hother x hne]
    exact ha.untouched x (hlen ▸ hx)
  · rw [hfree] at hx
    rcases List.mem_cons.1 hx with rfl | hx
    · omega
    · rw [hother x (hmem x hx)]
      exact ha.vacated x hx
  · rw [hfree, List.pairwise_cons]
    constructor
    · intro x hx
      have hle := vacatedAt_le x deeds
      rw [hnow, hother x (hmem x hx)]
      omega
    · refine ha.ordered.imp_of_mem fun {x y} hx hy hlt => ?_
      rw [hother x (hmem x hx), hother y (hmem y hy)]
      exact hlt

variable [Record ρ]

/-- The slot in front of the free list is handed out again. -/
theorem recycle (ha : s.Accounted deeds) (h : s.WellFormed) {slot : Nat} {free : List Nat}
    (hfree : s.free = slot :: free) :
    (s.recycled slot free).Accounted (.handedOut slot 1 :: deeds) := by
  have hnodup := h.freeList.nodup
  have hordered := ha.ordered
  rw [hfree, List.nodup_cons] at hnodup
  rw [hfree, List.pairwise_cons] at hordered
  have hlen : slot < s.len := h.freeList.lt_len slot (by rw [hfree]; exact List.mem_cons_self)
  refine ⟨fun x => ?_, fun x hx => ?_, fun x hx => ?_, ?_⟩
  · have huse := ha.inUse_iff x
    rw [hfree, List.mem_cons] at huse
    show ((slot ≤ x && x < slot + 1) || inUse x deeds) = true ↔ x < s.len ∧ x ∉ free
    rw [Bool.or_eq_true, huse]
    by_cases hx : x = slot
    · subst hx
      simp [hlen, hnodup.1]
    · have hne : ¬ (slot ≤ x ∧ x < slot + 1) := by omega
      simp only [Bool.and_eq_true, decide_eq_true_iff, hne, hx, false_or]
  · rw [vacatedAt_handedOut]
    exact ha.untouched x hx
  · rw [vacatedAt_handedOut]
    apply ha.vacated
    rw [hfree]
    exact List.mem_cons_of_mem _ hx
  -- the first of the list is gone, and the order of the others is as before
  · simp only [vacatedAt_handedOut]
    exact hordered.2

/-- Slots behind the others are handed out. -/
theorem extend (ha : s.Accounted deeds) (h : s.WellFormed) {s' : Store ρ τ} {count : Nat}
    (hlen : s'.len = s.len + count) (hfree : s'.free = s.free) :
    s'.Accounted (.handedOut s.len count :: deeds) := by
  refine ⟨fun x => ?_, fun x hx => ?_, fun x hx => ?_, ?_⟩
  · have hlt : x ∈ s.free → x < s.len := h.freeList.lt_len x
    rw [hlen, hfree, inUse, Bool.or_eq_true, ha.inUse_iff]
    simp only [Bool.and_eq_true, decide_eq_true_iff]
    constructor
    · rintro (⟨hge, hx⟩ | ⟨hx, hout⟩)
      · exact ⟨hx, fun hin => by have := hlt hin; omega⟩
      · exact ⟨by omega, hout⟩
    · rintro ⟨hx, hout⟩
      by_cases hge : s.len ≤ x
      · exact .inl ⟨hge, hx⟩
      · exact .inr ⟨by omega, hout⟩
  · rw [vacatedAt_handedOut]
    exact ha.untouched x (by omega)
  · rw [vacatedAt_handedOut]
    exact ha.vacated x (hfree ▸ hx)
  · simp only [vacatedAt_handedOut, hfree]
    exact ha.ordered

end Accounted

variable [Record ρ] [Inhabited τ]

/-- Whatever is done, the store knows what became of its slots. -/
theorem Outcome.accounted {s s' : Store ρ τ} {o : Operation ρ τ} {d : Option (Deed ρ)}
    {events : List Event} {deeds : List (Deed ρ)} (h : s.WellFormed) (hout : Outcome s o d events s')
    (ha : s.Accounted deeds) : s'.Accounted (d.toList ++ deeds) := by
  cases hout with
  | refused _ => exact ha
  | recycled hfree => exact ha.recycle h hfree
  | extended _ _ _ => exact ha.extend h rfl rfl
  | grown _ _ _ _ => exact ha.extend h rfl rfl
  | written slot r _ _ => exact ha.unaffected (fun _ => rfl) rfl rfl
  | deleted slot hslot =>
    have hlen := len_release (s.put slot (Record.encode (Record.markDeleted (s.recordAt slot)))) slot
    have hfree := h.free_delete slot (Record.encode (Record.markDeleted (s.recordAt slot)))
    -- deleting a free slot again changes no list
    by_cases hin : slot ∈ s.free
    · rw [if_pos hin] at hfree
      refine ha.unaffected (fun x => ?_) hlen hfree
      -- the slot was out of use already
      have hout := ((ha.mem_free slot).1 hin).2
      rw [inUse]
      by_cases hx : slot = x
      · rw [← hx, hout, Bool.and_false]
      · rw [bne_iff_ne.2 hx, Bool.true_and]
    · rw [if_neg hin] at hfree
      exact ha.release hslot hin hlen hfree
  | published => exact ha.unaffected (fun _ => rfl) rfl rfl
  | amended _ _ _ => exact ⟨ha.inUse_iff, ha.untouched, ha.vacated, ha.ordered⟩

/-! ## Counting -/

omit [Inhabited τ] in
/-- The slots in use and the free ones are together all that were handed out. -/
theorem Accounted.countP_inUse {s : Store ρ τ} {deeds : List (Deed ρ)} (ha : s.Accounted deeds)
    (h : s.WellFormed) :
    (List.range s.len).countP (inUse · deeds) + s.free.length = s.len := by
  apply h.countP_add_free
  intro x hx
  rw [ha.inUse_iff]
  exact and_iff_right hx

/-! ## Asking for slots after any run -/

/-- A single slot is the one in front of the free list. -/
theorem WellFormed.add_one_of_free {s : Store ρ τ} (h : s.WellFormed) {slot : Nat} {free : List Nat}
    (hfree : s.free = slot :: free) (events : Array Event) :
    add 1 ⟨s, events⟩ = .ok slot ⟨s.recycled slot free, events⟩ := by
  have hcases := h.add_cases 1 events
  have hne : s.free ≠ [] := by
    rw [hfree]
    exact List.cons_ne_nil _ _
  generalize add 1 ⟨s, events⟩ = result at hcases ⊢
  cases hcases with
  | refused f hroom => exact absurd ⟨Nat.one_ne_zero, .inl ⟨rfl, hne⟩⟩ hroom
  | recycled _ hfree' =>
    rw [hfree] at hfree'
    cases hfree'
    rfl
  | extended hnone _ => exact absurd (hnone rfl) hne
  | grown hnone _ _ => exact absurd (hnone rfl) hne

/-- Slots that are handed out come from the front of the free list, or are the next ones. -/
theorem WellFormed.add_eq_ok {s : Store ρ τ} (h : s.WellFormed) {count first : Nat}
    {events : Array Event} {t : Tracked (Store ρ τ)} (heq : add count ⟨s, events⟩ = .ok first t) :
    (count = 1 ∧ ∃ free, s.free = first :: free) ∨
      first = s.len ∧ (count = 1 → s.free = []) ∧ t.value.free = s.free := by
  have hcases := h.add_cases count events
  rw [heq] at hcases
  cases hcases with
  | recycled hone hfree => exact .inl ⟨hone, _, hfree⟩
  | extended hnone _ => exact .inr ⟨rfl, hnone, rfl⟩
  | grown hnone _ _ => exact .inr ⟨rfl, hnone, rfl⟩

/-- A slot that is handed out was not in use. -/
theorem Accounted.fresh {s : Store ρ τ} {deeds : List (Deed ρ)} (ha : s.Accounted deeds)
    (h : s.WellFormed) {count first : Nat} {events : Array Event} {t : Tracked (Store ρ τ)}
    (heq : add count ⟨s, events⟩ = .ok first t) {slot : Nat} (hlo : first ≤ slot)
    (hhi : slot < first + count) : inUse slot deeds = false := by
  rcases h.add_eq_ok heq with ⟨hone, free, hfree⟩ | ⟨hfirst, -, -⟩
  · have hslot : slot = first := by omega
    have hin : slot ∈ s.free := by
      rw [hslot, hfree]
      exact List.mem_cons_self
    exact ((ha.mem_free slot).1 hin).2
  · rw [Bool.eq_false_iff]
    intro huse
    have hlt := ((ha.inUse_iff slot).1 huse).1
    omega

/-- The slot in front of the free list is the one that went out of use last. -/
theorem Accounted.lastVacated {s : Store ρ τ} {deeds : List (Deed ρ)} (ha : s.Accounted deeds)
    (h : s.WellFormed) (hvacant : ∃ x, Vacant x deeds) (events : Array Event) :
    ∃ slot t, add 1 ⟨s, events⟩ = .ok slot t ∧ Vacant slot deeds ∧
      ∀ x, Vacant x deeds → x ≠ slot → vacatedAt x deeds < vacatedAt slot deeds := by
  obtain ⟨x, hx⟩ := hvacant
  rw [← ha.mem_free] at hx
  cases hfree : s.free with
  | nil =>
    rw [hfree] at hx
    exact absurd hx List.not_mem_nil
  | cons slot free =>
    have hordered := ha.ordered
    rw [hfree, List.pairwise_cons] at hordered
    refine ⟨slot, _, h.add_one_of_free hfree events, ?_, fun y hy hne => ?_⟩
    · rw [← ha.mem_free, hfree]
      exact List.mem_cons_self
    · rw [← ha.mem_free, hfree] at hy
      exact hordered.1 y ((List.mem_cons.1 hy).resolve_left hne)

theorem Accounted.next {s : Store ρ τ} {deeds : List (Deed ρ)} (ha : s.Accounted deeds)
    (h : s.WellFormed) {count first : Nat} {events : Array Event} {t : Tracked (Store ρ τ)}
    (hcount : 1 < count ∨ ¬ ∃ x, Vacant x deeds) (heq : add count ⟨s, events⟩ = .ok first t) :
    first = s.len ∧ t.value.free = s.free := by
  rcases h.add_eq_ok heq with ⟨hone, free, hfree⟩ | ⟨hfirst, -, hsame⟩
  · rcases hcount with hmany | hnone
    · omega
    · have hin : first ∈ s.free := by
        rw [hfree]
        exact List.mem_cons_self
      exact absurd ⟨first, (ha.mem_free first).1 hin⟩ hnone
  · exact ⟨hfirst, hsame⟩

/-- A slot is deleted so many times in a row. -/
def Usage.deleting (u : Usage ρ τ) (slot n : Nat) : Usage ρ τ :=
  (List.replicate n (.call (.set slot none))).foldl Usage.next u

private theorem next_delete {u : Usage ρ τ} (h : u.current.value.WellFormed) {slot : Nat}
    (hslot : slot < u.current.value.len) :
    (u.next (.call (.set slot none))).current.value.WellFormed ∧
      (u.next (.call (.set slot none))).current.value.len = u.current.value.len ∧
      (u.next (.call (.set slot none))).current.value.free
        = if slot ∈ u.current.value.free then u.current.value.free
          else slot :: u.current.value.free := by
  have hdelete : (u.next (.call (.set slot none))).current = ⟨_, u.current.events⟩ :=
    Edit.after_of_ok (h.set_none hslot u.current.events)
  rw [hdelete]
  exact ⟨(Step.delete slot hslot).wellFormed h, len_release _ slot, h.free_delete slot _⟩

/-- However often it is deleted in a row, a slot stands in the free list once. -/
theorem WellFormed.free_deleting {u : Usage ρ τ} (h : u.current.value.WellFormed) {slot : Nat}
    (hslot : slot < u.current.value.len) (n : Nat) :
    (u.deleting slot (n + 1)).current.value.WellFormed ∧
      (u.deleting slot (n + 1)).current.value.free
        = if slot ∈ u.current.value.free then u.current.value.free
          else slot :: u.current.value.free := by
  obtain ⟨hwf, hlen, hfree⟩ := next_delete h hslot
  induction n generalizing u with
  | zero => exact ⟨hwf, hfree⟩
  | succ n ih =>
    have hslot' : slot < (u.next (.call (.set slot none))).current.value.len := by
      rw [hlen]
      exact hslot
    obtain ⟨hwf', hlen', hfree'⟩ := next_delete hwf hslot'
    obtain ⟨hend, hlast⟩ := ih hwf hslot' hwf' hlen' hfree'
    -- the first deletion frees the slot, so the others find it free
    have hin : slot ∈ (u.next (.call (.set slot none))).current.value.free := by
      rw [hfree]
      split
      · next hold => exact hold
      · exact List.mem_cons_self
    rw [if_pos hin, hfree] at hlast
    exact ⟨hend, hlast⟩

/-- A slot that is deleted any number of times in a row is available once. -/
theorem Accounted.deleting {u : Usage ρ τ} (ha : u.current.value.Accounted u.deeds)
    (h : u.current.value.WellFormed) {slot : Nat} (hslot : slot < u.current.value.len) (n : Nat) :
    (u.deleting slot (n + 1)).current.value.free.count slot = 1 ∧
      (u.deleting slot (n + 1)).current.value.freeCount
        = u.current.value.freeCount + (if inUse slot u.deeds then 1 else 0) ∧
      (inUse slot u.deeds = true → ∃ t, add 1 (u.deleting slot (n + 1)).current = .ok slot t ∧
        t.value.free = u.current.value.free) := by
  obtain ⟨hwf, hfree⟩ := h.free_deleting hslot n
  have huse := ha.inUse_iff slot
  rw [hwf.freeList.nodup.count, freeCount, freeCount]
  by_cases hin : slot ∈ u.current.value.free
  · have hout : ¬ inUse slot u.deeds = true := fun hx => (huse.1 hx).2 hin
    rw [if_pos hin] at hfree
    rw [hfree, if_pos hin, if_neg hout]
    exact ⟨rfl, rfl, fun hx => absurd hx hout⟩
  · rw [if_neg hin] at hfree
    have hadd := hwf.add_one_of_free hfree (u.deleting slot (n + 1)).current.events
    rw [hfree, if_pos List.mem_cons_self, if_pos (huse.2 ⟨hslot, hin⟩)]
    exact ⟨rfl, rfl, fun _ => ⟨_, hadd, rfl⟩⟩

/-- What the callers of a store can rely on when they ask for slots and give them back. -/
structure Exclusive (u : Usage ρ τ) : Prop where
  /-- Slots are handed out exactly if there is room for them. -/
  answered : ∀ count, (∃ first t, add count u.current = .ok first t) ↔ u.current.value.HasRoom count
  /-- A request that is rejected changes nothing. -/
  rejected : ∀ count f t, add count u.current = .error f t → t = u.current
  /-- Slots that are handed out are not in use. -/
  fresh : ∀ count first t, add count u.current = .ok first t →
    ∀ slot, first ≤ slot → slot < first + count → inUse slot u.deeds = false
  /-- If there are vacant slots, a single slot is the one that went out of use last. -/
  lastVacated : (∃ x, Vacant x u.deeds) → ∃ slot t, add 1 u.current = .ok slot t ∧
    Vacant slot u.deeds ∧
      ∀ x, Vacant x u.deeds → x ≠ slot → vacatedAt x u.deeds < vacatedAt slot u.deeds
  /-- Several slots, or a single one if none are vacant, are the next ones; the free ones stay. -/
  next : ∀ count first t, (1 < count ∨ ¬ ∃ x, Vacant x u.deeds) → add count u.current = .ok first t →
    first = u.current.value.len ∧ t.value.free = u.current.value.free
  /-- A slot that is deleted any number of times in a row is available once: if it was in use, it is
  the next single slot, and with it gone the free slots are those from before. -/
  again : ∀ slot n, slot < u.current.value.len →
    (u.deleting slot (n + 1)).current.value.free.count slot = 1 ∧
      (u.deleting slot (n + 1)).current.value.freeCount
        = u.current.value.freeCount + (if inUse slot u.deeds then 1 else 0) ∧
      (inUse slot u.deeds = true → ∃ t, add 1 (u.deleting slot (n + 1)).current = .ok slot t ∧
        t.value.free = u.current.value.free)
  /-- The slots in use were all handed out, and are counted. -/
  counted : (∀ x, inUse x u.deeds = true → x < u.current.value.len) ∧
    u.current.value.liveCount = (List.range u.current.value.len).countP (inUse · u.deeds)
  /-- Slots are in use or free. -/
  balanced : u.current.value.liveCount + u.current.value.freeCount = u.current.value.len

/-- After any run, slots are handed out exclusively. -/
theorem allocation_exclusive {config : StoreConfig} (hv : config.Valid)
    (ops : List (Operation ρ τ)) :
    ∃ s₀ : Store ρ τ, Store.new config = .ok s₀ ∧ Exclusive (s₀.usage ops) := by
  have hnew : (Store.new config : Except Fault (Store ρ τ)) = .ok { config } :=
    new_eq_ok_iff.2 ⟨hv, rfl⟩
  obtain ⟨h, ha⟩ := usage_induction (ρ := ρ) (τ := τ) (P := Accounted) hv (accounted_empty config)
    (fun h hout ha => hout.accounted h ha) ops
  refine ⟨{ config }, hnew, ?_⟩
  generalize usage ({ config } : Store ρ τ) ops = u at h ha ⊢
  have hcount := ha.countP_inUse h
  refine ⟨fun count => h.add_ok_iff count _, ?_, fun _ _ _ heq _ => ha.fresh h heq,
    fun hvacant => ha.lastVacated h hvacant _, fun _ _ _ => ha.next h,
    fun _ n hslot => ha.deleting h hslot n, ⟨fun x hx => ((ha.inUse_iff x).1 hx).1, ?_⟩, ?_⟩
  · intro count f t heq
    have hcases := h.add_cases count u.current.events
    rw [heq] at hcases
    cases hcases
    rfl
  · rw [liveCount]
    omega
  · rw [liveCount, freeCount]
    omega

/-- Of three slots the second and the first are deleted, the second twice. -/
theorem allocation_exclusive_two_vacant :
    ({ blockSize := 2, maxModified := 1 } : StoreConfig).Valid ∧
      ∃ s₀ : Store NodeRecord Unit, Store.new { blockSize := 2, maxModified := 1 } = .ok s₀ ∧
        Exclusive (s₀.usage [.call (.add 3), .call (.set 1 none), .call (.set 0 none),
          .call (.set 1 none)]) :=
  ⟨by decide, allocation_exclusive (by decide) _⟩

example : vacatedAt 0 ([.deleted 1, .deleted 0, .deleted 1, .handedOut 0 3] : List (Deed Unit)) = 3 ∧
    vacatedAt 1 ([.deleted 1, .deleted 0, .deleted 1, .handedOut 0 3] : List (Deed Unit)) = 2 := by
  decide

end Store

end LiveGraph
