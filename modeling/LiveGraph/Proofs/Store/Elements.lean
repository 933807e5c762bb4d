import LiveGraph.Proofs.Store.Step

/-!
# The elements of a store

Which slots of a store are live, and what is kept beside them, after each call. Writing and deleting
concern one slot, growing and flushing none; a slot that is handed out was not live before, so what
it held before can be replaced.
-/

namespace LiveGraph

/-- Two snapshots with the same bytes in a slot read the same there. -/
theorem Snapshot.window_slot_congr {a b : Snapshot} {x : Nat} (hrec : a.recordSize = b.recordSize)
    (h : ∀ j, j < a.recordSize → a.byte x j = b.byte x j) :
    a.window x (x + 1) = b.window x (x + 1) := by
  apply Bytes.ext_getD
  · rw [size_window_slot, size_window_slot, hrec]
  · intro j hj
    rw [size_window_slot] at hj
    rw [getD_window_slot a hj, getD_window_slot b (hrec ▸ hj)]
    exact h j hj

namespace Store

variable {ρ τ : Type} [Record ρ]

/-! ## Records -/

/-- The record of a slot depends on its bytes only. -/
theorem recordAt_congr {s s' : Store ρ τ} {x : Nat}
    (h : ∀ j, j < Record.size ρ → s.image.byte x j = s'.image.byte x j) :
    s.recordAt x = s'.recordAt x := by
  have hwindow : s.image.window x (x + 1) = s'.image.window x (x + 1) :=
    Snapshot.window_slot_congr rfl h
  rw [recordAt, recordAt, hwindow]

/-- A record is read back from the slot it was written to, and no other slot changes. -/
theorem WellFormed.recordAt_put {s : Store ρ τ} (h : s.WellFormed) {slot x : Nat} (r : ρ)
    (hx : x < s.capacity) :
    (s.put slot (Record.encode r)).recordAt x = if x = slot then r else s.recordAt x := by
  have hbyte : ∀ j, j < Record.size ρ → (s.put slot (Record.encode r)).image.byte x j
      = if x = slot then (Record.encode r).getD j 0 else s.image.byte x j :=
    fun j hj => h.byte_put (Record.length_encode r) hx hj
  by_cases hxs : x = slot
  · rw [if_pos hxs]
    -- the slot holds exactly the bytes of the record, so it is decoded to it
    have hwindow : (s.put slot (Record.encode r)).image.window x (x + 1)
        = (Record.encode r).toArray := by
      have hsize := Snapshot.size_window_slot (s.put slot (Record.encode r)).image x
      apply Bytes.ext_getD
      · rw [hsize, List.size_toArray, Record.length_encode]
        rfl
      · intro j hj
        have hj' : j < Record.size ρ := Nat.lt_of_lt_of_eq hj hsize
        rw [Snapshot.getD_window_slot (s.put slot (Record.encode r)).image hj', hbyte j hj', if_pos hxs]
        simp [Array.getD_eq_getD_getElem?, List.getD_eq_getElem?_getD]
    rw [recordAt, hwindow, List.toList_toArray, Record.decode_encode]
  · rw [if_neg hxs]
    apply recordAt_congr
    intro j hj
    rw [hbyte j hj, if_neg hxs]

/-! ## Live slots -/

/-- The slot was handed out and is not free. -/
def Taken (s : Store ρ τ) (x : Nat) : Prop := x < s.len ∧ s.isFree.getD x false = false

/-- A live slot was handed out, is not free, and its record is not marked as deleted. -/
theorem WellFormed.isLive_iff {s : Store ρ τ} (h : s.WellFormed) (x : Nat) :
    s.isLive x = true ↔
      x < s.len ∧ s.isFree.getD x false = false ∧ Record.isDeleted (s.recordAt x) = false := by
  by_cases hx : x < s.len
  · have hrecord := h.record_eq (Nat.lt_of_lt_of_le hx h.len_le)
    simp [isLive, hrecord, hx]
  · simp [isLive, hx]

theorem WellFormed.lt_of_isLive {s : Store ρ τ} (h : s.WellFormed) {x : Nat}
    (hx : s.isLive x = true) : x < s.capacity :=
  Nat.lt_of_lt_of_le ((h.isLive_iff x).1 hx).1 h.len_le

/-- What is kept beside a slot. -/
def dataAt [Inhabited τ] (s : Store ρ τ) (slot : Nat) : τ := s.side.getD slot default

/-- Within the capacity there is data beside every slot. -/
theorem WellFormed.data_eq [Inhabited τ] {s : Store ρ τ} (h : s.WellFormed) {slot : Nat}
    (hslot : slot < s.capacity) : s.data slot = .ok (s.dataAt slot) := by
  have hget : s.side[slot]? = some (s.dataAt slot) := by
    have hlt : slot < s.side.size := by
      rw [h.size_side]
      exact hslot
    rw [dataAt, Array.getD_eq_getD_getElem?, Array.getElem?_eq_getElem hlt, Option.getD_some]
  rw [data, hget]

omit [Record ρ] in
theorem dataAt_of_data [Inhabited τ] {s : Store ρ τ} {slot : Nat} {d : τ} (h : s.data slot = .ok d) :
    s.dataAt slot = d := by
  rw [data] at h
  rw [dataAt, Array.getD_eq_getD_getElem?]
  split at h
  · next d' hd =>
    cases h
    rw [hd, Option.getD_some]
  · cases h

omit [Record ρ] in
/-- The data of the other slots stays. -/
theorem dataAt_modify [Inhabited τ] (s : Store ρ τ) {slot : Nat} (f : τ → τ)
    (hslot : slot < s.side.size) (x : Nat) :
    ({ s with side := s.side.modify slot f } : Store ρ τ).dataAt x
      = if x = slot then f (s.dataAt x) else s.dataAt x := by
  show (s.side.modify slot f).getD x default = _
  rw [getD_modify, dataAt]
  by_cases hx : slot = x
  · subst hx
    rw [if_pos ⟨rfl, hslot⟩, if_pos rfl]
  · rw [if_neg fun h => hx h.1, if_neg (Ne.symm hx)]

/-- Writing a record that is not marked as deleted makes its slot live. -/
theorem WellFormed.isLive_write {s : Store ρ τ} (h : s.WellFormed) {slot : Nat} {r : ρ}
    (hslot : slot < s.len) (hfree : s.isFree.getD slot false = false)
    (hr : Record.isDeleted r = false) (x : Nat) :
    ((s.put slot (Record.encode r)).mark slot).isLive x = true ↔ x = slot ∨ s.isLive x = true := by
  have hput := h.put slot (Record.encode r)
  have hmark : ((s.put slot (Record.encode r)).mark slot).isLive x
      = (s.put slot (Record.encode r)).isLive x := rfl
  rw [hmark, hput.isLive_iff, h.isLive_iff]
  show x < s.len ∧ s.isFree.getD x false = false ∧ _ ↔ _
  -- the flags of the other slots are as before, and so is what is written there
  by_cases hxs : x = slot
  · subst hxs
    rw [h.recordAt_put r (Nat.lt_of_lt_of_le hslot h.len_le), if_pos rfl]
    exact ⟨fun _ => .inl rfl, fun _ => ⟨hslot, hfree, hr⟩⟩
  · constructor
    · rintro ⟨hx, hxfree, hdel⟩
      rw [h.recordAt_put r (Nat.lt_of_lt_of_le hx h.len_le), if_neg hxs] at hdel
      exact .inr ⟨hx, hxfree, hdel⟩
    · rintro (heq | ⟨hx, hxfree, hdel⟩)
      · exact absurd heq hxs
      · rw [h.recordAt_put r (Nat.lt_of_lt_of_le hx h.len_le), if_neg hxs]
        exact ⟨hx, hxfree, hdel⟩

/-- Writing over a live slot a record that is not marked as deleted changes no slot's liveness. -/
theorem WellFormed.isLive_rewrite {s : Store ρ τ} (h : s.WellFormed) {slot : Nat} {r : ρ}
    (hlive : s.isLive slot = true) (hr : Record.isDeleted r = false) (x : Nat) :
    ((s.put slot (Record.encode r)).mark slot).isLive x = s.isLive x := by
  obtain ⟨hslot, hfree, -⟩ := (h.isLive_iff slot).1 hlive
  rw [Bool.eq_iff_iff, h.isLive_write hslot hfree hr]
  constructor
  · rintro (rfl | hx)
    · exact hlive
    · exact hx
  · exact .inr

/-- A released slot is free, and the others stay as they were. -/
theorem WellFormed.isFree_release {s : Store ρ τ} (h : s.WellFormed) {slot : Nat}
    (hslot : slot < s.len) (x : Nat) :
    (s.release slot).isFree.getD x false = (x == slot || s.isFree.getD x false) := by
  have hin := h.lt_size_isFree hslot
  rw [Store.release]
  by_cases hfree : s.isFree.getD slot false = true
  · rw [if_pos hfree]
    by_cases hx : x = slot
    · rw [hx, hfree, beq_self_eq_true]
      rfl
    · rw [beq_false_of_ne hx, Bool.false_or]
  · rw [if_neg hfree, getD_setIfInBounds]
    by_cases hx : x = slot
    · rw [hx, if_pos ⟨rfl, hin⟩, beq_self_eq_true, Bool.true_or]
    · rw [if_neg fun hc => hx hc.1.symm, beq_false_of_ne hx, Bool.false_or]

/-- The free slots after one was deleted. -/
theorem WellFormed.free_delete {s : Store ρ τ} (h : s.WellFormed) (slot : Nat) (bytes : List UInt8) :
    (((s.put slot bytes).release slot).mark slot).free
      = if slot ∈ s.free then s.free else slot :: s.free := by
  have hfree := h.freeList.mem_free slot
  show ((s.put slot bytes).release slot).free = _
  rw [Store.release]
  by_cases hin : slot ∈ s.free
  · have hflag : (s.put slot bytes).isFree.getD slot false = true := hfree.1 hin
    rw [if_pos hflag, if_pos hin]
    rfl
  · have hflag : ¬ (s.put slot bytes).isFree.getD slot false = true := fun hf => hin (hfree.2 hf)
    rw [if_neg hflag, if_neg hin]
    rfl

/-- Freeing a slot does not write to it. -/
theorem recordAt_release (s : Store ρ τ) (slot x : Nat) :
    (s.release slot).recordAt x = s.recordAt x := by
  rw [release_eq]
  rfl

/-- A deleted slot is not live, and the others stay as they were. -/
theorem WellFormed.isLive_delete {s : Store ρ τ} (h : s.WellFormed) {slot : Nat}
    (hslot : slot < s.len) (x : Nat) :
    (((s.put slot (Record.encode (Record.markDeleted (s.recordAt slot)))).release slot).mark
      slot).isLive x = true ↔ s.isLive x = true ∧ x ≠ slot := by
  have hput := h.put slot (Record.encode (Record.markDeleted (s.recordAt slot)))
  show ((s.put slot (Record.encode (Record.markDeleted (s.recordAt slot)))).release
    slot).isLive x = true ↔ _
  rw [(hput.release hslot).isLive_iff, h.isLive_iff, len_release, hput.isFree_release hslot,
    recordAt_release]
  show x < s.len ∧ (x == slot || s.isFree.getD x false) = false ∧ _ ↔ _
  by_cases hxs : x = slot
  · simp [hxs]
  · rw [beq_false_of_ne hxs, Bool.false_or]
    constructor
    · rintro ⟨hx, hxfree, hdel⟩
      rw [h.recordAt_put _ (Nat.lt_of_lt_of_le hx h.len_le), if_neg hxs] at hdel
      exact ⟨⟨hx, hxfree, hdel⟩, hxs⟩
    · rintro ⟨⟨hx, hxfree, hdel⟩, -⟩
      rw [h.recordAt_put _ (Nat.lt_of_lt_of_le hx h.len_le), if_neg hxs]
      exact ⟨hx, hxfree, hdel⟩

variable [Inhabited τ]

/-- The data beside a deleted record stays; it is overwritten when the slot is used again. -/
theorem dataAt_delete (s : Store ρ τ) (slot : Nat) (bytes : List UInt8) (x : Nat) :
    (((s.put slot bytes).release slot).mark slot).dataAt x = s.dataAt x := by
  rw [release_eq]
  rfl

/-! ## New slots -/

/-- A slot was handed out: it was not live before, it can be written, and nothing else changed. -/
structure Fresh (s : Store ρ τ) (slot : Nat) (s' : Store ρ τ) : Prop where
  wellFormed : s'.WellFormed
  dead : s.isLive slot = false
  lt_len : slot < s'.len
  inUse : s'.isFree.getD slot false = false
  taken : ∀ x, x ≠ slot → (s'.Taken x ↔ s.Taken x)
  live : ∀ x, x ≠ slot → s'.isLive x = s.isLive x
  data : ∀ x, s'.dataAt x = s.dataAt x
  record : ∀ x, s.isLive x = true → s'.recordAt x = s.recordAt x

/-- A slot of the free list is a fresh one: it is not live, and nothing else changes. -/
theorem WellFormed.fresh_recycled {s : Store ρ τ} (h : s.WellFormed) {slot : Nat} {free : List Nat}
    (hfree : s.free = slot :: free) : Fresh s slot (s.recycled slot free) := by
  have hmem : slot ∈ s.free := by
    rw [hfree]
    exact List.mem_cons_self
  have hisFree := (h.freeList.mem_free slot).1 hmem
  have hlen := h.freeList.lt_len slot hmem
  have hin := h.lt_size_isFree hlen
  have hrecycled := h.recycled hfree
  have hother : ∀ x, x ≠ slot →
      (s.recycled slot free).isFree.getD x false = s.isFree.getD x false := by
    intro x hx
    rw [Store.recycled, getD_setIfInBounds, if_neg fun hc => hx hc.1.symm]
  refine ⟨hrecycled, ?_, hlen, ?_, fun x hx => ?_, fun x hx => ?_, fun _ => rfl, fun _ _ => rfl⟩
  · rw [isLive, hisFree]
    simp
  · rw [Store.recycled, getD_setIfInBounds, if_pos ⟨rfl, hin⟩]
  · unfold Taken
    rw [hother x hx]
    rfl
  · rw [Bool.eq_iff_iff, hrecycled.isLive_iff, h.isLive_iff, hother x hx]
    rfl

/-- The next slot is handed out, in a store that has room for it. -/
theorem WellFormed.fresh_extended {s : Store ρ τ} (h : s.WellFormed) (hcap : s.len + 1 ≤ s.capacity) :
    Fresh s s.len { s with len := s.len + 1 } := by
  have hext := h.extend (Nat.le_succ s.len) hcap
  have hlen : ∀ x, x ≠ s.len → (x < s.len + 1 ↔ x < s.len) := by omega
  refine ⟨hext, ?_, Nat.lt_succ_self _, ?_, fun x hx => ?_, fun x hx => ?_, fun _ => rfl,
    fun _ _ => rfl⟩
  · rw [isLive]
    simp
  · cases hfree : s.isFree.getD s.len false with
    | false => rfl
    -- a slot behind the used ones is on no free list
    | true =>
      have hlt := h.freeList.lt_len _ ((h.freeList.mem_free _).2 hfree)
      exact absurd hlt (Nat.lt_irrefl _)
  · show x < s.len + 1 ∧ _ ↔ _
    rw [hlen x hx]
    rfl
  · rw [Bool.eq_iff_iff, hext.isLive_iff, h.isLive_iff]
    show x < s.len + 1 ∧ _ ↔ _
    rw [hlen x hx]
    rfl

/-- Growing changes no record. -/
theorem WellFormed.recordAt_grown {s : Store ρ τ} (h : s.WellFormed) {capacity x : Nat}
    (hcap : s.capacity ≤ capacity) (hx : x < s.capacity) :
    (s.grown capacity).recordAt x = s.recordAt x := by
  apply recordAt_congr
  intro j hj
  exact h.byte_grown (Nat.lt_of_lt_of_le hx hcap) hj

/-- Growing changes no element. -/
theorem WellFormed.isLive_grown {s : Store ρ τ} (h : s.WellFormed) {capacity : Nat}
    (hcap : s.capacity ≤ capacity) (hfits : Feasible ρ capacity) (x : Nat) :
    (s.grown capacity).isLive x = s.isLive x := by
  rw [Bool.eq_iff_iff, (h.grown hcap hfits).isLive_iff, h.isLive_iff]
  show x < s.len ∧ (padded s.isFree capacity false).getD x false = false ∧ _ ↔ _
  rw [getD_padded]
  have hrecord : x < s.len → (s.grown capacity).recordAt x = s.recordAt x :=
    fun hx => h.recordAt_grown hcap (Nat.lt_of_lt_of_le hx h.len_le)
  constructor
  · rintro ⟨hx, hfree, hdel⟩
    rw [hrecord hx] at hdel
    exact ⟨hx, hfree, hdel⟩
  · rintro ⟨hx, hfree, hdel⟩
    rw [hrecord hx]
    exact ⟨hx, hfree, hdel⟩

/-- A request for one slot is refused, or hands out a fresh one. -/
theorem WellFormed.add_one_cases {s : Store ρ τ} (h : s.WellFormed) (events : Array Event) :
    (∃ f, add 1 ⟨s, events⟩ = .error f ⟨s, events⟩) ∨
      ∃ slot s' events', add 1 ⟨s, events⟩ = .ok slot ⟨s', events'⟩ ∧ Fresh s slot s' := by
  have hcases := h.add_cases 1 events
  generalize add 1 ⟨s, events⟩ = result at hcases ⊢
  cases hcases with
  | refused f _ => exact .inl ⟨f, rfl⟩
  | recycled _ hfree => exact .inr ⟨_, _, _, rfl, h.fresh_recycled hfree⟩
  | extended _ hcap => exact .inr ⟨_, _, _, rfl, h.fresh_extended hcap⟩
  -- growing changes no slot, so the new slot is one more behind those of the larger store
  | grown _ hfull hfits =>
    have hdoubled := le_doubled (max s.capacity 1) (s.len + 1)
    have hcap : s.capacity ≤ s.grownCapacity (s.len + 1) :=
      Nat.le_trans (Nat.le_max_left _ _) hdoubled.2
    have hfresh := (h.grown hcap hfits).fresh_extended hdoubled.1
    have hlive := h.isLive_grown hcap hfits
    refine .inr ⟨_, _, _, rfl, hfresh.wellFormed, ?_, hfresh.lt_len, hfresh.inUse, ?_, ?_, ?_, ?_⟩
    · rw [← hlive]
      exact hfresh.dead
    · intro x hx
      refine (hfresh.taken x hx).trans ?_
      show x < s.len ∧ (padded s.isFree _ false).getD x false = false ↔ _
      rw [getD_padded]
      rfl
    · intro x hx
      exact (hfresh.live x hx).trans (hlive x)
    · intro x
      exact (hfresh.data x).trans (getD_padded _ _ _ _)
    · intro x hx
      exact (hfresh.record x ((hlive x).trans hx)).trans (h.recordAt_grown hcap (h.lt_of_isLive hx))

/-! ## Free slots -/

/-- The record of a free slot is marked as deleted. -/
def Tombstoned (s : Store ρ τ) : Prop :=
  ∀ x, s.isFree.getD x false = true → Record.isDeleted (s.recordAt x) = true

/-- Every step leaves the marks of free slots alone, and a slot that becomes free gets its mark. -/
theorem Step.tombstoned {s s' : Store ρ τ} {events : List Event} (hs : Step s events s')
    (h : s.WellFormed) (ht : s.Tombstoned) : s'.Tombstoned := by
  have hlt : ∀ x, s.isFree.getD x false = true → x < s.capacity := by
    intro x hx
    exact Nat.lt_of_lt_of_le (h.freeList.lt_len x ((h.freeList.mem_free x).2 hx)) h.len_le
  intro x hx
  cases hs with
  | refuse => exact ht x hx
  | @recycle slot free hfree =>
    apply ht x
    rw [Store.recycled, getD_setIfInBounds] at hx
    split at hx
    · cases hx
    · exact hx
  | extend _ _ => exact ht x hx
  | @grow len capacity _ hcap _ _ =>
    have hfree : s.isFree.getD x false = true := by
      rw [← getD_padded s.isFree capacity]
      exact hx
    show Record.isDeleted ((s.grown capacity).recordAt x) = true
    rw [h.recordAt_grown hcap (hlt x hfree)]
    exact ht x hfree
  -- what is written to is in use
  | write slot r _ hinUse =>
    have hfree : s.isFree.getD x false = true := hx
    have hne : x ≠ slot := by
      rintro rfl
      rw [hfree] at hinUse
      cases hinUse
    show Record.isDeleted ((s.put slot (Record.encode r)).recordAt x) = true
    rw [h.recordAt_put r (hlt x hfree), if_neg hne]
    exact ht x hfree
  | delete slot hslot =>
    have hput := h.put slot (Record.encode (Record.markDeleted (s.recordAt slot)))
    have hfree : (x == slot || s.isFree.getD x false) = true :=
      (hput.isFree_release hslot x).symm.trans hx
    show Record.isDeleted (((s.put slot _).release slot).recordAt x) = true
    rw [recordAt_release]
    -- the deleted record is written before its slot is freed
    by_cases hxs : x = slot
    · rw [hxs, h.recordAt_put _ (Nat.lt_of_lt_of_le hslot h.len_le), if_pos rfl]
      exact Record.isDeleted_markDeleted _
    · rw [beq_false_of_ne hxs, Bool.false_or] at hfree
      rw [h.recordAt_put _ (hlt x hfree), if_neg hxs]
      exact ht x hfree
  | data slot f => exact ht x hx
  | flush => exact ht x hx

omit [Inhabited τ] in
/-- Among the slots handed out, the live ones are those whose record is not marked as deleted. -/
theorem WellFormed.isLive_iff_isDeleted {s : Store ρ τ} (h : s.WellFormed) (ht : s.Tombstoned)
    {x : Nat} (hx : x < s.len) :
    s.isLive x = true ↔ Record.isDeleted (s.recordAt x) = false := by
  rw [h.isLive_iff]
  constructor
  · exact fun hlive => hlive.2.2
  · intro hdel
    refine ⟨hx, ?_, hdel⟩
    cases hfree : s.isFree.getD x false with
    | false => rfl
    | true =>
      rw [ht x hfree] at hdel
      cases hdel

omit [Inhabited τ] in
/-- The slots that are not free and the free ones are together all that were handed out. -/
theorem WellFormed.countP_add_free {s : Store ρ τ} (h : s.WellFormed) {p : Nat → Bool}
    (hp : ∀ x, x < s.len → (p x = true ↔ x ∉ s.free)) :
    (List.range s.len).countP p + s.free.length = s.len := by
  -- the slots with the property and the free ones are all slots, each once
  have hperm : ((List.range s.len).filter p ++ s.free).Perm (List.range s.len) := by
    rw [List.perm_ext_iff_of_nodup _ List.nodup_range]
    · intro x
      have hlt : x ∈ s.free → x < s.len := h.freeList.lt_len x
      rw [List.mem_append, List.mem_filter, List.mem_range]
      constructor
      · rintro (hx | hx)
        · exact hx.1
        · exact hlt hx
      · intro hx
        by_cases hin : x ∈ s.free
        · exact .inr hin
        · exact .inl ⟨hx, (hp x hx).2 hin⟩
    · rw [List.nodup_append]
      refine ⟨List.nodup_range.filter _, h.freeList.nodup, fun x hx y hy hxy => ?_⟩
      obtain ⟨hrange, hpx⟩ := List.mem_filter.1 hx
      exact (hp x (List.mem_range.1 hrange)).1 hpx (hxy ▸ hy)
  have hlength := hperm.length_eq
  rw [List.length_append, List.length_range] at hlength
  rw [List.countP_eq_length_filter]
  exact hlength

/-! ## Calls, as seen by their elements -/

/-- What is kept beside a slot is replaced, and nothing else changes. -/
theorem WellFormed.amend {s : Store ρ τ} (h : s.WellFormed) {slot : Nat} (hslot : slot < s.capacity)
    (f : τ → τ) (events : Array Event) :
    ∃ s', modifyData slot f ⟨s, events⟩ = .ok () ⟨s', events⟩ ∧ s'.WellFormed ∧ s'.len = s.len ∧
      s'.free = s.free ∧ s'.isFree = s.isFree ∧ (∀ x, s'.isLive x = s.isLive x) ∧
      (∀ x, s'.recordAt x = s.recordAt x) ∧
      ∀ x, s'.dataAt x = if x = slot then f (s.dataAt x) else s.dataAt x := by
  have hside : slot < s.side.size := by
    rw [h.size_side]
    exact hslot
  have heval := modifyData_eq s slot f events
  rw [if_neg (Nat.not_le_of_lt hside)] at heval
  exact ⟨_, heval, h.modifySide slot f, rfl, rfl, rfl, fun _ => rfl, fun _ => rfl,
    dataAt_modify s f hside⟩

/-- The two stores have the same elements. -/
structure SameElements (s s' : Store ρ τ) : Prop where
  wellFormed : s'.WellFormed
  taken : ∀ x, s'.Taken x ↔ s.Taken x
  live : ∀ x, s'.isLive x = s.isLive x
  data : ∀ x, s'.dataAt x = s.dataAt x

theorem WellFormed.sameElements {s : Store ρ τ} (h : s.WellFormed) : SameElements s s :=
  ⟨h, fun _ => .rfl, fun _ => rfl, fun _ => rfl⟩

/-- Having the same elements is transitive. -/
theorem SameElements.trans {s s₁ s₂ : Store ρ τ} (h : SameElements s s₁) (h' : SameElements s₁ s₂) :
    SameElements s s₂ :=
  ⟨h'.wellFormed, fun x => (h'.taken x).trans (h.taken x), fun x => (h'.live x).trans (h.live x),
    fun x => (h'.data x).trans (h.data x)⟩

/-- Apart from its bytes, the store only has the mark of a change more. -/
def Marked (s : Store ρ τ) (slot : Nat) (s' : Store ρ τ) : Prop :=
  { s' with blocks := s.blocks } = s.mark slot

omit [Record ρ] [Inhabited τ] in
theorem Marked.capacity {s s' : Store ρ τ} {slot : Nat} (h : Marked s slot s') :
    s'.capacity = s.capacity :=
  (congrArg Store.capacity h :)

omit [Inhabited τ] in
/-- The second mark finds the first one. -/
theorem Marked.trans {s s₁ s₂ : Store ρ τ} {slot : Nat} (hs : s.WellFormed) (hslot : slot < s.capacity)
    (h : Marked s slot s₁) (h' : Marked s₁ slot s₂) : Marked s slot s₂ := by
  have hbytes : { s₂ with blocks := s.blocks }
      = ({ s₁ with blocks := s.blocks } : Store ρ τ).mark slot :=
    congrArg (fun x : Store ρ τ => ({ x with blocks := s.blocks } : Store ρ τ)) h'
  rw [Marked, hbytes, h]
  exact hs.tracking.mark_mark hs.valid hslot

/-- A live slot has got another record. -/
structure Rewritten (s : Store ρ τ) (slot : Nat) (r : ρ) (s' : Store ρ τ) : Prop extends
    SameElements s s' where
  record : ∀ x, s.isLive x = true → s'.recordAt x = if x = slot then r else s.recordAt x
  others : ∀ x, x < s.capacity → x ≠ slot → s'.recordAt x = s.recordAt x
  marked : Marked s slot s'

/-- A live slot is written over. -/
theorem WellFormed.rewrite {s : Store ρ τ} (h : s.WellFormed) {slot : Nat} {r : ρ}
    (hlive : s.isLive slot = true) (hr : Record.isDeleted r = false) (events : Array Event) :
    ∃ s', set slot (some r) ⟨s, events⟩ = .ok () ⟨s', events⟩ ∧ Rewritten s slot r s' := by
  obtain ⟨hslot, hfree, -⟩ := (h.isLive_iff slot).1 hlive
  refine ⟨_, h.set_some r hslot hfree events,
    ⟨(h.put _ _).mark hslot, fun _ => .rfl, ?_, fun _ => rfl⟩, ?_, ?_, rfl⟩
  · exact h.isLive_rewrite hlive hr
  · intro x hx
    exact h.recordAt_put r (h.lt_of_isLive hx)
  · intro x hx hne
    exact (h.recordAt_put r hx).trans (if_neg hne)

/-- Some slots may have got other records, and these are noted as changed. Nothing else is different:
the same slots are live, and counts, side data and free slots are the same. -/
structure Overwritten (s : Store ρ τ) (written : Nat → Prop) (s' : Store ρ τ) : Prop where
  wellFormed : s'.WellFormed
  frame : { s' with blocks := s.blocks, changes := s.changes, dirtyBlocks := s.dirtyBlocks } = s
  live : ∀ x, s'.isLive x = s.isLive x
  others : ∀ x, x < s.capacity → ¬ written x → s'.recordAt x = s.recordAt x
  dirty : ∀ x, s'.IsDirty x ↔ written x ∨ s.IsDirty x

namespace Overwritten

variable {s s₁ s₂ : Store ρ τ} {P Q : Nat → Prop}

omit [Inhabited τ]

theorem len (h : Overwritten s P s₁) : s₁.len = s.len := (congrArg Store.len h.frame :)

theorem capacity (h : Overwritten s P s₁) : s₁.capacity = s.capacity :=
  (congrArg Store.capacity h.frame :)

theorem side (h : Overwritten s P s₁) : s₁.side = s.side := (congrArg Store.side h.frame :)

theorem isFree (h : Overwritten s P s₁) : s₁.isFree = s.isFree := (congrArg Store.isFree h.frame :)

/-- Nothing is overwritten where nothing is done. -/
theorem refl (h : s.WellFormed) : Overwritten s (fun _ => False) s :=
  ⟨h, rfl, fun _ => rfl, fun _ _ _ => rfl, fun _ => (or_iff_right id).symm⟩

/-- What two writes overwrite is what one of them does. -/
theorem trans (h : Overwritten s P s₁) (h' : Overwritten s₁ Q s₂) :
    Overwritten s (fun x => P x ∨ Q x) s₂ where
  wellFormed := h'.wellFormed
  frame := by
    have hframe := congrArg (fun x : Store ρ τ => ({ x with
      blocks := s.blocks, changes := s.changes, dirtyBlocks := s.dirtyBlocks } : Store ρ τ)) h'.frame
    exact hframe.trans h.frame
  live x := (h'.live x).trans (h.live x)
  others x hx hnot := by
    rw [not_or] at hnot
    rw [h'.others x (by rw [h.capacity]; exact hx) hnot.2, h.others x hx hnot.1]
  dirty x := by
    rw [h'.dirty, h.dirty, ← or_assoc, or_comm (a := Q x)]

/-- Which slots were written can be said in another way. -/
theorem congr (h : Overwritten s P s₁) (hPQ : ∀ x, P x ↔ Q x) : Overwritten s Q s₁ :=
  ⟨h.wellFormed, h.frame, h.live, fun x hx hnot => h.others x hx (mt (hPQ x).1 hnot),
    fun x => by rw [h.dirty, hPQ]⟩

end Overwritten

/-- Writing records makes no elements and deletes none. -/
theorem Overwritten.sameElements {s s' : Store ρ τ} {P : Nat → Prop} (h : Overwritten s P s') :
    SameElements s s' where
  wellFormed := h.wellFormed
  taken x := by rw [Taken, Taken, h.len, h.isFree]
  live := h.live
  data x := by rw [dataAt, dataAt, h.side]

/-- Rewriting the record of a slot overwrites that slot. -/
theorem Rewritten.overwritten {s s' : Store ρ τ} {slot : Nat} {r : ρ} (h : Rewritten s slot r s')
    (hs : s.WellFormed) (hslot : slot < s.capacity) : Overwritten s (· = slot) s' where
  wellFormed := h.wellFormed
  frame := congrArg (fun x : Store ρ τ => ({ x with
    changes := s.changes, dirtyBlocks := s.dirtyBlocks } : Store ρ τ)) h.marked
  live := h.live
  others := h.others
  dirty x := by
    have hsame : s'.IsDirty x ↔ ({ s' with blocks := s.blocks } : Store ρ τ).IsDirty x := Iff.rfl
    rw [hsame, h.marked]
    exact hs.tracking.isDirty_mark hs.valid hslot x

/-- A flush always succeeds, and leaves all elements and records. -/
theorem WellFormed.publish {s : Store ρ τ} (h : s.WellFormed) (events : Array Event) :
    ∃ s' events', flush ⟨s, events⟩ = .ok () ⟨s', events'⟩ ∧ SameElements s s' ∧
      ∀ x, s'.recordAt x = s.recordAt x :=
  ⟨_, _, h.flush_eq events, ⟨h.flushed, fun _ => .rfl, fun _ => rfl, fun _ => rfl⟩, fun _ => rfl⟩

/-- The free slots after further ones were released, each on top unless it was free already. -/
def released (free slots : List Nat) : List Nat :=
  slots.foldl (fun free x => if x ∈ free then free else x :: free) free

/-- Some slots are gone. -/
structure Erased (s : Store ρ τ) (slots : List Nat) (s' : Store ρ τ) : Prop where
  wellFormed : s'.WellFormed
  len : s'.len = s.len
  free : s'.free = released s.free slots
  taken : ∀ x, s'.Taken x ↔ s.Taken x ∧ x ∉ slots
  live : ∀ x, s'.isLive x = true ↔ s.isLive x = true ∧ x ∉ slots
  record : ∀ x, s'.isLive x = true → s'.recordAt x = s.recordAt x
  data : ∀ x, s'.dataAt x = s.dataAt x

theorem WellFormed.erased_nil {s : Store ρ τ} (h : s.WellFormed) : Erased s [] s := by
  refine ⟨h, rfl, rfl, fun x => ?_, fun x => ?_, fun _ _ => rfl, fun _ => rfl⟩
  · exact ⟨fun hx => ⟨hx, List.not_mem_nil⟩, And.left⟩
  · exact ⟨fun hx => ⟨hx, List.not_mem_nil⟩, And.left⟩

/-- Elements that go one after the other are gone together. -/
theorem Erased.trans {s s₁ s₂ : Store ρ τ} {xs ys : List Nat} (h : Erased s xs s₁)
    (h' : Erased s₁ ys s₂) : Erased s (xs ++ ys) s₂ where
  wellFormed := h'.wellFormed
  len := h'.len.trans h.len
  free := by
    rw [h'.free, h.free]
    exact List.foldl_append.symm
  taken x := by rw [h'.taken, h.taken, List.mem_append, not_or, and_assoc]
  live x := by rw [h'.live, h.live, List.mem_append, not_or, and_assoc]
  record x hx := (h'.record x hx).trans (h.record x ((h'.live x).1 hx).1)
  data x := (h'.data x).trans (h.data x)

/-- A slot is deleted. -/
theorem WellFormed.erase {s : Store ρ τ} (h : s.WellFormed) {slot : Nat} (hslot : slot < s.len)
    (events : Array Event) :
    ∃ s', set slot none ⟨s, events⟩ = .ok () ⟨s', events⟩ ∧ Erased s [slot] s' := by
  have hnotMem : ∀ x, x ∉ [slot] ↔ x ≠ slot := fun x => not_congr List.mem_singleton
  refine ⟨_, h.set_none hslot events, ?_, ?_, ?_, fun x => ?_, fun x => ?_, fun x hx => ?_,
    dataAt_delete s slot _⟩
  · exact (Step.delete slot hslot).wellFormed h
  · exact len_release _ slot
  · exact h.free_delete slot _
  · have hput := h.put slot (Record.encode (Record.markDeleted (s.recordAt slot)))
    show x < (Store.release _ slot).len ∧ (Store.release _ slot).isFree.getD x false = false ↔ _
    rw [len_release, hput.isFree_release hslot, Bool.or_eq_false_iff, beq_eq_false_iff_ne, hnotMem]
    exact ⟨fun ⟨hx, hne, hfree⟩ => ⟨⟨hx, hfree⟩, hne⟩, fun ⟨⟨hx, hfree⟩, hne⟩ => ⟨hx, hne, hfree⟩⟩
  · rw [hnotMem]
    exact h.isLive_delete hslot x
  · obtain ⟨hlive, hne⟩ := (h.isLive_delete hslot x).1 hx
    refine (recordAt_release _ slot x).trans ?_
    rw [h.recordAt_put _ (h.lt_of_isLive hlive), if_neg hne]

/-- A slot that was not live becomes so, with record `r` and `d` beside it. -/
structure Inserted (s : Store ρ τ) (slot : Nat) (r : ρ) (d : τ) (s' : Store ρ τ) : Prop where
  wellFormed : s'.WellFormed
  dead : s.isLive slot = false
  taken : ∀ x, s'.Taken x ↔ x = slot ∨ s.Taken x
  live : ∀ x, s'.isLive x = true ↔ x = slot ∨ s.isLive x = true
  data : ∀ x, s'.dataAt x = if x = slot then d else s.dataAt x
  record : ∀ x, s'.isLive x = true → s'.recordAt x = if x = slot then r else s.recordAt x

/-- A fresh slot gets its data and its record. -/
theorem Fresh.insert {s s₀ : Store ρ τ} {slot : Nat} (hfresh : Fresh s slot s₀) (f : τ → τ) {r : ρ}
    (hr : Record.isDeleted r = false) (events : Array Event) :
    ∃ s₁ s₂, modifyData slot f ⟨s₀, events⟩ = .ok () ⟨s₁, events⟩ ∧
      set slot (some r) ⟨s₁, events⟩ = .ok () ⟨s₂, events⟩ ∧
      Inserted s slot r (f (s.dataAt slot)) s₂ := by
  have hcap := Nat.lt_of_lt_of_le hfresh.lt_len hfresh.wellFormed.len_le
  obtain ⟨s₁, hamend, hwf, hlen, -, hfree, hlive, hrecord, hdata⟩ :=
    hfresh.wellFormed.amend hcap f events
  have hslot : slot < s₁.len := by
    rw [hlen]
    exact hfresh.lt_len
  have hinUse : s₁.isFree.getD slot false = false := by
    rw [hfree]
    exact hfresh.inUse
  -- after both writes the new slot is live, and otherwise what was live before
  have hlive' : ∀ x, ((s₁.put slot (Record.encode r)).mark slot).isLive x = true ↔
      x = slot ∨ s.isLive x = true := by
    intro x
    rw [hwf.isLive_write hslot hinUse hr]
    by_cases hx : x = slot
    · simp [hx]
    · rw [hlive, hfresh.live x hx]
  refine ⟨s₁, _, hamend, hwf.set_some r hslot hinUse events, (hwf.put _ _).mark hslot, hfresh.dead,
    fun x => ?_, hlive', fun x => ?_, fun x hx => ?_⟩
  · show s₁.Taken x ↔ _
    by_cases hx : x = slot
    · rw [hx]
      exact ⟨fun _ => .inl rfl, fun _ => ⟨hslot, hinUse⟩⟩
    · have hsame : s₁.Taken x ↔ s₀.Taken x := by
        unfold Taken
        rw [hlen, hfree]
      rw [hsame, hfresh.taken x hx]
      exact ⟨.inr, fun htaken => htaken.resolve_left hx⟩
  · show s₁.dataAt x = _
    rw [hdata, hfresh.data]
    by_cases hx : x = slot
    · rw [if_pos hx, if_pos hx, hx]
    · rw [if_neg hx, if_neg hx]
  · have hlt := ((hwf.put slot (Record.encode r)).mark hslot).lt_of_isLive hx
    refine (hwf.recordAt_put r hlt).trans ?_
    by_cases hxs : x = slot
    · rw [if_pos hxs, if_pos hxs]
    · rw [if_neg hxs, if_neg hxs, hrecord, hfresh.record x (((hlive' x).1 hx).resolve_left hxs)]

end Store

end LiveGraph
