import LiveGraph.Proofs.Edit
import LiveGraph.Proofs.Store.Invariant
import LiveGraph.Store.Flush

/-!
# What a flush does

A flush publishes the events of all dirty blocks, `Store.flushEvents`, and leaves no block with
changes, `Store.flushed`. Every changed slot is covered by an event of its flush, and no event goes
beyond the capacity.
-/

namespace LiveGraph

namespace Store

variable {ρ τ : Type} [Record ρ]

/-- The changes of the blocks, with those of some blocks forgotten. -/
def settle (changes : Array BlockChanges) (bs : List Nat) : Array BlockChanges :=
  bs.foldl (fun changes b => changes.modify b (·.clear)) changes

/-- The events of a flush. -/
def flushEvents (s : Store ρ τ) : List Event := s.dirtyBlocks.toList.flatMap (s.blockEvents s.image)

/-- The store after a flush. -/
def flushed (s : Store ρ τ) : Store ρ τ :=
  { s with changes := settle s.changes s.dirtyBlocks.toList, dirtyBlocks := #[] }

/-! ## The moves -/

omit [Record ρ] in
theorem forM_publishMoves (events : List Event) (t : Tracked (Store ρ τ)) :
    (events.map FlushMove.publish).forM takeMove t
      = .ok () ⟨t.value, t.events ++ events.toArray⟩ := by
  have hmoves : ((events.map FlushMove.publish).forM takeMove : Edit Fault (Store ρ τ) Unit)
      = events.forM Edit.publish := List.forM_map ..
  rw [hmoves, Edit.forM_publish]

omit [Record ρ] in
/-- The moves for some blocks publish their events and forget their changes. -/
private theorem forM_moves (event : Nat → List Event) (bs : List Nat) (t : Tracked (Store ρ τ)) :
    (bs.flatMap fun b => (event b).map FlushMove.publish ++ [.settle b]).forM takeMove t
      = .ok () ⟨{ t.value with changes := settle t.value.changes bs },
          t.events ++ (bs.flatMap event).toArray⟩ := by
  induction bs generalizing t with
  | nil => simp [settle, pure, EStateM.pure]
  | cons b bs ih =>
    have hsettle : takeMove (.settle b) (⟨t.value, t.events ++ (event b).toArray⟩ :
        Tracked (Store ρ τ)) = .ok () ⟨{ t.value with changes := t.value.changes.modify b (·.clear) },
          t.events ++ (event b).toArray⟩ := rfl
    rw [List.flatMap_cons, List.append_assoc, Edit.forM_append_of_ok (forM_publishMoves _ t),
      List.singleton_append, Edit.forM_cons_of_ok hsettle, ih]
    simp [settle]

/-- A flush that takes only some of its moves. -/
def flushBy (pick : List FlushMove → List FlushMove) : Edit Fault (Store ρ τ) Unit := do
  let s ← Edit.read
  if s.dirtyBlocks.isEmpty then return
  let buffer ← Edit.ofExcept s.snapshot
  Edit.change ({ · with dirtyBlocks := #[] })
  (pick (s.flushMoves buffer)).forM takeMove

theorem flush_eq_flushBy : (flush : Edit Fault (Store ρ τ) Unit) = flushBy id := rfl

/-- A flush does what its moves do once the list of dirty blocks is empty. -/
theorem WellFormed.flushBy_eq {s : Store ρ τ} (h : s.WellFormed)
    {pick : List FlushMove → List FlushMove} (hpick : pick [] = []) (events : Array Event) :
    flushBy pick ⟨s, events⟩
      = (pick (s.flushMoves s.image)).forM takeMove ⟨{ s with dirtyBlocks := #[] }, events⟩ := by
  rw [flushBy, Edit.read_bind]
  by_cases hempty : s.dirtyBlocks = #[]
  · have hsame : { s with dirtyBlocks := #[] } = s := by
      rw [← hempty]
    have hnone : s.flushMoves s.image = [] := by
      rw [flushMoves, hempty]
      rfl
    rw [hsame, hnone, hpick, hempty]
    rfl
  · have hsnap : (Edit.ofExcept s.snapshot : Edit Fault (Store ρ τ) _) ⟨s, events⟩
        = .ok s.image ⟨s, events⟩ := by
      rw [h.snapshot_eq]
      rfl
    have hchange : (Edit.change ({ · with dirtyBlocks := #[] }) : Edit Fault (Store ρ τ) _)
        ⟨s, events⟩ = .ok () ⟨{ s with dirtyBlocks := #[] }, events⟩ := rfl
    have hne : s.dirtyBlocks.isEmpty = false := by simpa using hempty
    rw [hne]
    simp only [Bool.false_eq_true, if_false]
    rw [Edit.bind_of_ok hsnap, Edit.bind_of_ok hchange]

/-- A flush always succeeds. -/
theorem WellFormed.flush_eq {s : Store ρ τ} (h : s.WellFormed) (events : Array Event) :
    flush ⟨s, events⟩ = .ok () ⟨s.flushed, events ++ s.flushEvents.toArray⟩ := by
  rw [flush_eq_flushBy, h.flushBy_eq rfl, id, flushMoves, forM_moves]
  rfl

/-! ## The store behind a flush -/

theorem getElem?_settle (bs : List Nat) (changes : Array BlockChanges) (b : Nat) :
    (settle changes bs)[b]? = changes[b]?.map fun c => if b ∈ bs then c.clear else c := by
  induction bs generalizing changes with
  | nil => simp [settle]
  | cons a bs ih =>
    have hcons : settle changes (a :: bs) = settle (changes.modify a (·.clear)) bs := rfl
    rw [hcons, ih, Array.getElem?_modify]
    by_cases hab : a = b
    · subst hab
      -- clearing twice is clearing once
      cases changes[a]? with
      | none => simp
      | some c =>
        by_cases hin : a ∈ bs
        · simp [hin, BlockChanges.clear]
        · simp [hin]
    · simp [hab, Ne.symm hab]

/-- After a flush no block has changes. -/
theorem WellFormed.modified_flushed {s : Store ρ τ} (h : s.WellFormed) (b : Nat)
    (c : BlockChanges) (hc : s.flushed.changes[b]? = some c) : c.modified = #[] := by
  rw [flushed, getElem?_settle] at hc
  obtain ⟨old, hold, rfl⟩ := Option.map_eq_some_iff.1 hc
  split
  · rfl
  · next hclean =>
    rw [← Array.mem_def, h.tracking.mem_dirty] at hclean
    by_cases hmod : old.modified = #[]
    · exact hmod
    · exact absurd ⟨old, hold, hmod⟩ hclean

/-- No slot is dirty after a flush. -/
theorem WellFormed.not_isDirty_flushed {s : Store ρ τ} (h : s.WellFormed) (x : Nat) :
    ¬ s.flushed.IsDirty x := by
  intro hx
  rw [IsDirty, modified] at hx
  split at hx
  · next c hc =>
    rw [h.modified_flushed _ c hc] at hx
    simp at hx
  · simp at hx

/-- A flush keeps the store well-formed. -/
theorem WellFormed.flushed {s : Store ρ τ} (h : s.WellFormed) : s.flushed.WellFormed := by
  refine ⟨h.valid, h.fits, h.len_le, h.layout, h.size_side, h.freeList, ?_, ?_, ?_, by
    simp [Store.flushed], fun b => ?_⟩
  · have hsize : ∀ (bs : List Nat) (changes : Array BlockChanges),
        (settle changes bs).size = changes.size := by
      intro bs
      induction bs with
      | nil => exact fun _ => rfl
      | cons b bs ih =>
        intro changes
        have hcons : settle changes (b :: bs) = settle (changes.modify b (·.clear)) bs := rfl
        rw [hcons, ih, Array.size_modify]
    rw [Store.flushed, hsize]
    exact h.tracking.size_changes
  · intro b c hc
    rw [Store.flushed, getElem?_settle] at hc
    obtain ⟨old, hold, rfl⟩ := Option.map_eq_some_iff.1 hc
    have hsound := h.tracking.sound b old hold
    split
    · exact hsound.clear
    · exact hsound
  · intro b c hc o ho
    rw [h.modified_flushed b c hc] at ho
    simp at ho
  · constructor
    · intro hin
      simp [Store.flushed] at hin
    · rintro ⟨c, hc, hne⟩
      exact absurd (h.modified_flushed b c hc) hne

/-! ## The events of a flush -/

/-- The event updates the slots `start .. stop` to what the store holds. -/
def IsUpdate (s : Store ρ τ) (e : Event) (start stop : Nat) : Prop :=
  e = .range (Record.kind ρ) start stop s.image ∨
    e = .slot (Record.kind ρ) start s.image ∧ stop = start + 1

/-- The events of a flush update slots below the capacity. -/
theorem WellFormed.isUpdate_of_mem {s : Store ρ τ} (h : s.WellFormed) {e : Event}
    (he : e ∈ s.flushEvents) :
    ∃ start stop, s.IsUpdate e start stop ∧ start < stop ∧ stop ≤ s.capacity := by
  rw [flushEvents, List.mem_flatMap] at he
  obtain ⟨b, hb, he⟩ := he
  obtain ⟨c, hc, -⟩ := (h.tracking.mem_dirty b).1 (Array.mem_def.2 hb)
  have hcount : b * s.config.blockSize < s.capacity := by
    rw [← lt_blockCount h.valid, ← h.tracking.size_changes]
    exact (Array.getElem?_eq_some_iff.1 hc).1
  have hpos := h.blockSize_pos
  rw [blockEvents, modified_of_getElem? hc] at he
  split at he
  · rw [List.mem_singleton] at he
    exact ⟨_, _, .inl he, by omega, by omega⟩
  · obtain ⟨o, ho, rfl⟩ := List.mem_map.1 he
    have hlt := h.tracking.lt_len b c hc o (Array.mem_def.2 ho)
    have hle := h.len_le
    exact ⟨_, _, .inr ⟨rfl, rfl⟩, by omega, by omega⟩

/-- The block of a changed slot is dirty, and lists the slot among its changes. -/
theorem WellFormed.exists_changes_of_isDirty {s : Store ρ τ} (h : s.WellFormed) {x : Nat}
    (hx : s.IsDirty x) : ∃ c, s.changes[x / s.config.blockSize]? = some c ∧
      UInt16.ofNat (x % s.config.blockSize) ∈ c.modified ∧
      x / s.config.blockSize ∈ s.dirtyBlocks := by
  rw [IsDirty, modified] at hx
  split at hx
  · next c hc =>
    refine ⟨c, hc, hx, (h.tracking.mem_dirty _).2 ⟨c, hc, fun hempty => ?_⟩⟩
    rw [hempty] at hx
    simp at hx
  · simp at hx

/-- Every changed slot is updated by an event of its block. -/
theorem WellFormed.exists_isUpdate_block {s : Store ρ τ} (h : s.WellFormed) {x : Nat}
    (hx : s.IsDirty x) :
    ∃ e ∈ s.blockEvents s.image (x / s.config.blockSize),
      ∃ start stop, s.IsUpdate e start stop ∧ start ≤ x ∧ x < stop ∧ stop ≤ s.capacity := by
  have hmod := Nat.div_add_mod x s.config.blockSize
  have hlt := Nat.mod_lt x h.blockSize_pos
  rw [Nat.mul_comm] at hmod
  have hoff := toNat_offset h.valid x
  obtain ⟨c, hc, ho, -⟩ := h.exists_changes_of_isDirty hx
  have hlen := h.tracking.lt_len _ c hc _ ho
  have hle := h.len_le
  rw [hoff] at hlen
  rw [blockEvents, modified_of_getElem? hc]
  -- a block with many changes is sent as a whole, up to the end of the array
  by_cases hmany : s.config.maxModified ≤ c.modified.size
  · rw [if_pos hmany]
    exact ⟨_, List.mem_singleton_self _, _, _, .inl rfl, by omega, by omega, by omega⟩
  · rw [if_neg hmany]
    refine ⟨_, List.mem_map.2 ⟨_, Array.mem_def.1 ho, rfl⟩, _, _, .inr ⟨rfl, rfl⟩, ?_, ?_, ?_⟩
    · omega
    · omega
    · omega

/-- Every changed slot is updated by an event of the flush. -/
theorem WellFormed.exists_isUpdate {s : Store ρ τ} (h : s.WellFormed) {x : Nat}
    (hx : s.IsDirty x) :
    ∃ e ∈ s.flushEvents, ∃ start stop, s.IsUpdate e start stop ∧ start ≤ x ∧ x < stop := by
  obtain ⟨c, -, -, hdirty⟩ := h.exists_changes_of_isDirty hx
  obtain ⟨e, he, start, stop, hupdate, hlo, hhi, -⟩ := h.exists_isUpdate_block hx
  exact ⟨e, List.mem_flatMap.2 ⟨_, Array.mem_def.1 hdirty, he⟩, start, stop, hupdate, hlo, hhi⟩

/-- Without pending changes no slot is dirty. -/
theorem WellFormed.not_isDirty_of_pendingChanges {s : Store ρ τ} (h : s.WellFormed)
    (hnone : s.pendingChanges = 0) (x : Nat) : ¬ s.IsDirty x := by
  intro hx
  obtain ⟨c, -, -, hdirty⟩ := h.exists_changes_of_isDirty hx
  -- a dirty slot would be among the changed ones of its block
  have hempty := List.flatMap_eq_nil_iff.1 (List.eq_nil_of_length_eq_zero hnone) _
    (Array.mem_toList_iff.2 hdirty)
  exact List.not_mem_nil (hempty ▸ Array.mem_toList_iff.2 hx)

end Store

end LiveGraph
