import LiveGraph.Proofs.Store.History

/-!
# What a flush publishes

The marks of the blocks and the queue of dirty blocks remember, in the order in which they were first
set, the slots that were set since the last flush. So what a flush publishes can be told from the deeds
alone, `Store.dueEvents`: the blocks in the order of their first change, each as a whole or slot by slot.
-/

namespace LiveGraph

/-! ## First occurrences -/

/-- Without repetitions no element occurs twice. -/
theorem nodup_eraseDups : ∀ l : List Nat, l.eraseDups.Nodup
  | [] => by simp
  | a :: l => by
    have hlt : (l.filter fun b => !b == a).length < l.length + 1 :=
      Nat.lt_succ_of_le (List.length_filter_le _ _)
    rw [List.eraseDups_cons, List.nodup_cons, List.mem_eraseDups, List.mem_filter]
    exact ⟨by simp, nodup_eraseDups _⟩
termination_by l => l.length

/-- A further element is kept if it is a new one. -/
theorem eraseDups_concat (l : List Nat) (x : Nat) :
    (l ++ [x]).eraseDups = if x ∈ l then l.eraseDups else l.eraseDups ++ [x] := by
  rw [List.eraseDups_append]
  by_cases hx : x ∈ l
  · simp [hx, List.removeAll]
  · simp [hx, List.removeAll, List.eraseDups_cons]

/-- The event tells its consumer to read the slot again. -/
def Event.Covers (e : Event) (x : Nat) : Prop :=
  ∃ start stop, e.slots? = .ok (some (start, stop)) ∧ start ≤ x ∧ x < stop

theorem Event.covers_range {kind : Kind} {start stop x : Nat} {buffer : Snapshot}
    (h : (Event.range kind start stop buffer).Covers x) : start ≤ x ∧ x < stop := by
  obtain ⟨a, b, hslots, hax, hxb⟩ := h
  cases hslots
  exact ⟨hax, hxb⟩

theorem Event.covers_slot {kind : Kind} {slot x : Nat} {buffer : Snapshot}
    (h : (Event.slot kind slot buffer).Covers x) : x = slot := by
  obtain ⟨a, b, hslots, hax, hxb⟩ := h
  rw [Event.slots?] at hslots
  split at hslots
  · next stop hstop =>
    cases hslots
    have := (addSize?_eq_some.1 hstop).2
    omega
  · cases hslots

namespace Store

variable {ρ τ : Type} [Record ρ]

/-! ## The rule -/

/-- The slots set since the last flush, in the order in which they were set. -/
def pendingSlots : List (Deed ρ) → List Nat
  | [] => []
  | .published :: _ => []
  | .handedOut _ _ :: deeds => pendingSlots deeds
  | .written slot _ :: deeds => pendingSlots deeds ++ [slot]
  | .deleted slot :: deeds => pendingSlots deeds ++ [slot]

/-- The slots of a block among some slots, each at its first occurrence. -/
def slotsIn (config : StoreConfig) (slots : List Nat) (b : Nat) : List Nat :=
  (slots.filter (· / config.blockSize = b)).eraseDups

/-- What has to be published about a block of an array, if some slots were set. -/
def dueIn (config : StoreConfig) (kind : Kind) (capacity : Nat) (buffer : Snapshot)
    (slots : List Nat) (b : Nat) : List Event :=
  if config.maxModified ≤ (slotsIn config slots b).length then
    [.range kind (b * config.blockSize) (min ((b + 1) * config.blockSize) capacity) buffer]
  else (slotsIn config slots b).map (.slot kind · buffer)

/-- What has to be published about an array, if some slots were set. -/
def dueEvents (config : StoreConfig) (kind : Kind) (capacity : Nat) (buffer : Snapshot)
    (slots : List Nat) : List Event :=
  (slots.map (· / config.blockSize)).eraseDups.flatMap (dueIn config kind capacity buffer slots)

/-- The slots in a block are those that lie in it. -/
theorem mem_slotsIn {config : StoreConfig} {slots : List Nat} {b x : Nat} :
    x ∈ slotsIn config slots b ↔ x ∈ slots ∧ x / config.blockSize = b := by
  rw [slotsIn, List.mem_eraseDups, List.mem_filter, decide_eq_true_iff]

/-- An event about a block covers slots of that block. -/
theorem div_of_covers {config : StoreConfig} (hv : config.Valid) {kind : Kind} {capacity : Nat}
    {buffer : Snapshot} {slots : List Nat} {b x : Nat} {e : Event}
    (he : e ∈ dueIn config kind capacity buffer slots b) (hx : e.Covers x) :
    x / config.blockSize = b := by
  have hpos : 0 < config.blockSize := Nat.lt_of_lt_of_le hv.1 hv.2.1
  rw [dueIn] at he
  split at he
  · rw [List.mem_singleton] at he
    subst he
    obtain ⟨hlo, hhi⟩ := Event.covers_range hx
    have hlt : x < (b + 1) * config.blockSize := Nat.lt_of_lt_of_le hhi (Nat.min_le_left _ _)
    apply Nat.le_antisymm
    · exact Nat.le_of_lt_succ ((Nat.div_lt_iff_lt_mul hpos).2 hlt)
    · exact (Nat.le_div_iff_mul_le hpos).2 hlo
  · obtain ⟨slot, hslot, rfl⟩ := List.mem_map.1 he
    rw [Event.covers_slot hx]
    exact (mem_slotsIn.1 hslot).2

/-- No slot is covered twice. -/
theorem pairwise_dueEvents {config : StoreConfig} (hv : config.Valid) (kind : Kind) (capacity : Nat)
    (buffer : Snapshot) (slots : List Nat) :
    (dueEvents config kind capacity buffer slots).Pairwise
      fun e e' => ∀ x, ¬ (e.Covers x ∧ e'.Covers x) := by
  rw [dueEvents, List.pairwise_flatMap]
  constructor
  · -- a block that is not sent as a whole has its slots once each
    intro b _
    rw [dueIn]
    split
    · exact List.pairwise_singleton _ _
    · rw [List.pairwise_map]
      refine (nodup_eraseDups _).imp fun hne x hx => hne ?_
      rw [← Event.covers_slot hx.1, ← Event.covers_slot hx.2]
  · refine (nodup_eraseDups _).imp fun hne e he e' he' x hx => hne ?_
    rw [← div_of_covers hv he hx.1, ← div_of_covers hv he' hx.2]

/-- The slots of all blocks together are the slots that were set, each once. -/
theorem length_flatMap_slotsIn (config : StoreConfig) (slots : List Nat) :
    ((slots.map (· / config.blockSize)).eraseDups.flatMap (slotsIn config slots)).length
      = slots.eraseDups.length := by
  apply List.Perm.length_eq
  rw [List.perm_ext_iff_of_nodup _ (nodup_eraseDups _)]
  · intro x
    rw [List.mem_flatMap, List.mem_eraseDups]
    constructor
    · rintro ⟨b, -, hx⟩
      exact (mem_slotsIn.1 hx).1
    · intro hx
      exact ⟨_, List.mem_eraseDups.2 (List.mem_map.2 ⟨x, hx, rfl⟩), mem_slotsIn.2 ⟨hx, rfl⟩⟩
  · -- a slot belongs to one block, and is listed there once
    refine List.pairwise_flatMap.2 ⟨fun b _ => nodup_eraseDups _, ?_⟩
    refine (nodup_eraseDups _).imp fun hne x hx y hy hxy => hne ?_
    rw [← (mem_slotsIn.1 hx).2, ← (mem_slotsIn.1 hy).2, hxy]

/-! ## The invariant -/

/-- The store has noted that some slots were set: the blocks in the order of their first change, and
the changes of each block in the order in which they were first made. -/
structure Noted (s : Store ρ τ) (slots : List Nat) : Prop where
  blocks : s.dirtyBlocks.toList = (slots.map (· / s.config.blockSize)).eraseDups
  offsets : ∀ b, (s.modified b).toList.map (fun o => b * s.config.blockSize + o.toNat)
    = slotsIn s.config slots b

omit [Record ρ] in
/-- A slot is marked exactly if it was set. -/
theorem Noted.mem_modified {s : Store ρ τ} {slots : List Nat} (h : s.Noted slots)
    (hv : s.config.Valid) (slot : Nat) :
    UInt16.ofNat (slot % s.config.blockSize) ∈ s.modified (slot / s.config.blockSize)
      ↔ slot ∈ slots := by
  have hoffset := toNat_offset hv slot
  have hmod := Nat.div_add_mod' slot s.config.blockSize
  have hin : slot ∈ slotsIn s.config slots (slot / s.config.blockSize) ↔ slot ∈ slots := by
    rw [mem_slotsIn]
    exact ⟨fun hx => hx.1, fun hx => ⟨hx, rfl⟩⟩
  rw [← hin, ← h.offsets, List.mem_map]
  constructor
  · intro ho
    exact ⟨_, Array.mem_def.1 ho, by rw [hoffset, hmod]⟩
  · rintro ⟨o, ho, heq⟩
    have hsame : UInt16.ofNat (slot % s.config.blockSize) = o := by
      rw [← UInt16.toNat_inj, hoffset]
      omega
    rw [hsame]
    exact Array.mem_def.2 ho

omit [Record ρ] in
/-- A block has changes exactly if one of its slots was set. -/
theorem Noted.modified_eq_empty {s : Store ρ τ} {slots : List Nat} (h : s.Noted slots) (b : Nat) :
    s.modified b = #[] ↔ b ∉ slots.map (· / s.config.blockSize) := by
  have hnil : s.modified b = #[] ↔ slotsIn s.config slots b = [] := by
    rw [← h.offsets, List.map_eq_nil_iff, Array.toList_eq_nil_iff]
  rw [hnil, List.eq_nil_iff_forall_not_mem]
  constructor
  · intro hnone hb
    obtain ⟨x, hx, rfl⟩ := List.mem_map.1 hb
    exact hnone x (mem_slotsIn.2 ⟨hx, rfl⟩)
  · intro hb x hx
    obtain ⟨hset, rfl⟩ := mem_slotsIn.1 hx
    exact hb (List.mem_map.2 ⟨x, hset, rfl⟩)

omit [Record ρ] in
/-- The next slot is noted behind the others. -/
theorem Noted.mark {s : Store ρ τ} {slots : List Nat} (h : s.Noted slots) (hv : s.config.Valid)
    (ht : Tracking s.config s.len s.capacity s.changes s.dirtyBlocks) {slot : Nat}
    (hslot : slot < s.capacity) : (s.mark slot).Noted (slots ++ [slot]) := by
  have hconfig : (s.mark slot).config = s.config := rfl
  constructor
  · rw [hconfig, List.map_append, List.map_singleton, eraseDups_concat, ht.dirtyBlocks_mark_eq hv hslot]
    -- a block is noted when the first of its slots is changed
    by_cases hb : slot / s.config.blockSize ∈ slots.map (· / s.config.blockSize)
    · have hne : s.modified (slot / s.config.blockSize) ≠ #[] := fun heq =>
        (h.modified_eq_empty _).1 heq hb
      rw [if_pos hb, if_neg hne, h.blocks]
    · rw [if_neg hb, if_pos ((h.modified_eq_empty _).2 hb), Array.toList_push, h.blocks]
  · intro b
    have hold := h.offsets b
    rw [slotsIn] at hold
    rw [hconfig, ht.modified_mark hv hslot, slotsIn, List.filter_append]
    by_cases hb : slot / s.config.blockSize = b
    · have hfilter : [slot].filter (· / s.config.blockSize = b) = [slot] := by simp [hb]
      have hmem : slot ∈ slots.filter (· / s.config.blockSize = b) ↔ slot ∈ slots := by
        rw [List.mem_filter, decide_eq_true_iff]
        exact ⟨fun hx => hx.1, fun hx => ⟨hx, hb⟩⟩
      rw [hfilter, eraseDups_concat]
      by_cases hin : slot ∈ slots
      · rw [if_neg fun hnew => hnew.2 ((h.mem_modified hv slot).2 hin), if_pos (hmem.2 hin), hold]
      -- a slot that was not noted is put last, and its offset gives it back
      · have hnew : UInt16.ofNat (slot % s.config.blockSize) ∉ s.modified (slot / s.config.blockSize) :=
          fun ho => hin ((h.mem_modified hv slot).1 ho)
        rw [if_pos ⟨hb, hnew⟩, if_neg fun hx => hin (hmem.1 hx), Array.toList_push, List.map_append,
          hold, List.map_singleton, toNat_offset hv, ← hb, Nat.div_add_mod']
    · have hfilter : [slot].filter (· / s.config.blockSize = b) = [] := by simp [hb]
      rw [hfilter, List.append_nil, if_neg fun hnew => hb hnew.1, hold]

omit [Record ρ] in
/-- A new store has nothing noted. -/
theorem noted_empty (config : StoreConfig) : ({ config } : Store ρ τ).Noted [] :=
  ⟨by simp, fun b => by simp [modified, slotsIn]⟩

/-- After a flush nothing is noted. -/
theorem WellFormed.noted_flushed {s : Store ρ τ} (h : s.WellFormed) : s.flushed.Noted [] := by
  refine ⟨by simp [Store.flushed], fun b => ?_⟩
  have hnone : s.flushed.modified b = #[] := by
    rw [modified]
    split
    · next c hc => exact h.modified_flushed b c hc
    · rfl
  rw [hnone]
  simp [slotsIn]

variable [Inhabited τ]

/-- Whatever is done, the store notes the slots that were set since the last flush. -/
theorem Outcome.noted {s s' : Store ρ τ} {o : Operation ρ τ} {d : Option (Deed ρ)}
    {events : List Event} {deeds : List (Deed ρ)} (h : s.WellFormed) (hout : Outcome s o d events s')
    (hn : s.Noted (pendingSlots deeds)) : s'.Noted (pendingSlots (d.toList ++ deeds)) := by
  cases hout with
  | refused _ => exact hn
  | recycled _ => exact ⟨hn.blocks, hn.offsets⟩
  | extended _ _ _ => exact ⟨hn.blocks, hn.offsets⟩
  | @grown count _ _ _ _ =>
    refine ⟨hn.blocks, fun b => ?_⟩
    show ((s.grown (s.grownCapacity (s.len + count))).modified b).toList.map _ = _
    rw [modified_grown]
    exact hn.offsets b
  | written slot r hslot _ =>
    have hcap : slot < s.capacity := Nat.lt_of_lt_of_le hslot h.len_le
    have hput : (s.put slot (Record.encode r)).Noted (pendingSlots deeds) := ⟨hn.blocks, hn.offsets⟩
    exact hput.mark h.valid h.tracking hcap
  | deleted slot hslot =>
    have hcap : slot < s.capacity := Nat.lt_of_lt_of_le hslot h.len_le
    have hput : (s.put slot (Record.encode (Record.markDeleted (s.recordAt slot)))).Noted
        (pendingSlots deeds) := ⟨hn.blocks, hn.offsets⟩
    have hmark := hput.mark h.valid h.tracking hcap
    -- the slot is noted before it goes to the free list
    rw [mark_release]
    exact ⟨hmark.blocks, hmark.offsets⟩
  | published => exact h.noted_flushed
  | amended _ _ _ => exact ⟨hn.blocks, hn.offsets⟩

omit [Record ρ] [Inhabited τ] in
theorem Noted.size_modified {s : Store ρ τ} {slots : List Nat} (h : s.Noted slots) (b : Nat) :
    (s.modified b).size = (slotsIn s.config slots b).length := by
  rw [← h.offsets, List.length_map, Array.length_toList]

omit [Record ρ] [Inhabited τ] in
/-- The changes that wait for a flush are the slots that were set, each once. -/
theorem Noted.pendingChanges_eq {s : Store ρ τ} {slots : List Nat} (h : s.Noted slots) :
    s.pendingChanges = slots.eraseDups.length := by
  rw [← length_flatMap_slotsIn s.config slots, pendingChanges, List.length_flatMap, List.length_flatMap,
    h.blocks]
  simp only [Array.length_toList, h.size_modified]

omit [Inhabited τ] in
/-- What a flush publishes is what is due for the slots that were set. -/
theorem Noted.flushEvents_eq {s : Store ρ τ} {slots : List Nat} (h : s.Noted slots) :
    s.flushEvents = dueEvents s.config (Record.kind ρ) s.capacity s.image slots := by
  have hblock : ∀ b, s.blockEvents s.image b
      = dueIn s.config (Record.kind ρ) s.capacity s.image slots b := by
    intro b
    rw [blockEvents, dueIn, h.size_modified, ← h.offsets, Nat.add_mul, Nat.one_mul, List.map_map]
    rfl
  rw [flushEvents, dueEvents, h.blocks]
  congr 1
  exact funext hblock

/-! ## Flushing after any run -/

/-- What a flush does, told by the deeds before it: `buffer` is the content of the array, and `after`
the store behind the flush. -/
structure Publishes (config : StoreConfig) (u : Usage ρ τ) (buffer : Snapshot)
    (after : Store ρ τ) : Prop where
  /-- The content that the events carry is that of the store, and the flush leaves it alone. -/
  content : u.current.value.snapshot = .ok buffer ∧ after.snapshot = .ok buffer
  /-- As many changes wait as slots were set. -/
  pending : u.current.value.pendingChanges = (pendingSlots u.deeds).eraseDups.length
  /-- What is due is published, and nothing else. -/
  published : flush u.current = .ok () ⟨after, u.current.events ++
    (dueEvents config (Record.kind ρ) u.current.value.capacity buffer (pendingSlots u.deeds)).toArray⟩
  /-- No slot is covered by two events. -/
  once : (dueEvents config (Record.kind ρ) u.current.value.capacity buffer
    (pendingSlots u.deeds)).Pairwise fun e e' => ∀ x, ¬ (e.Covers x ∧ e'.Covers x)
  /-- Afterwards no changes wait. -/
  settled : after.pendingChanges = 0 ∧ after.dirtyBlockCount = 0
  /-- A second flush publishes nothing. -/
  silent : ∀ events, flush ⟨after, events⟩ = .ok () ⟨after, events⟩

/-- After any run, what a flush publishes is determined by the slots set since the last flush. -/
theorem flush_determined {config : StoreConfig} (hv : config.Valid) (ops : List (Operation ρ τ)) :
    ∃ s₀ : Store ρ τ, Store.new config = .ok s₀ ∧
      ∃ buffer after, Publishes config (s₀.usage ops) buffer after := by
  have hnew : (Store.new config : Except Fault (Store ρ τ)) = .ok { config } :=
    new_eq_ok_iff.2 ⟨hv, rfl⟩
  obtain ⟨h, hconfig, hnoted⟩ := usage_induction (ρ := ρ) (τ := τ)
    (P := fun s deeds => s.config = config ∧ s.Noted (pendingSlots deeds)) hv
    ⟨rfl, noted_empty config⟩
    (fun h hout hP => ⟨hout.config_eq.trans hP.1, hout.noted h hP.2⟩) ops
  refine ⟨{ config }, hnew, ?_⟩
  generalize usage ({ config } : Store ρ τ) ops = u at h hconfig hnoted ⊢
  have hflushed := h.noted_flushed
  have hevents := hnoted.flushEvents_eq
  rw [hconfig] at hevents
  refine ⟨u.current.value.image, u.current.value.flushed, ⟨h.snapshot_eq, h.flushed.snapshot_eq⟩,
    hnoted.pendingChanges_eq, ?_, pairwise_dueEvents hv _ _ _ _, ⟨hflushed.pendingChanges_eq, rfl⟩, ?_⟩
  · rw [← hevents]
    exact h.flush_eq u.current.events
  -- a second flush finds nothing noted
  · intro events
    have hsecond := h.flushed.flush_eq events
    have hsame : u.current.value.flushed.flushed = u.current.value.flushed := rfl
    have hnone : u.current.value.flushed.flushEvents = [] := rfl
    rw [hsame, hnone, Array.append_empty] at hsecond
    exact hsecond

/-- Of two blocks, the one that changed first is published first and as a whole, the other by its slot;
the slot that was set twice counts once. -/
theorem flush_determined_two_blocks :
    ({ blockSize := 2, maxModified := 2 } : StoreConfig).Valid ∧
      ∃ s₀ : Store NodeRecord Unit, Store.new { blockSize := 2, maxModified := 2 } = .ok s₀ ∧
        ∃ buffer after, Publishes { blockSize := 2, maxModified := 2 }
          (s₀.usage [.call (.add 4), .call (.set 3 (some default)), .call (.set 0 none),
            .call (.set 2 none), .call (.set 3 none)]) buffer after :=
  ⟨by decide, flush_determined (by decide) _⟩

example (buffer : Snapshot) :
    dueEvents { blockSize := 2, maxModified := 2 } .node 4 buffer [3, 0, 2, 3]
      = [.range .node 2 4 buffer, .slot .node 0 buffer] := by
  rfl

end Store

end LiveGraph
