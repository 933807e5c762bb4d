import LiveGraph.Proofs.Store.Elements

/-!
# The order of changes

A store notes the slots that change in the order in which they do. Stores that hold the same and differ
in this order only are interchangeable: their next flushes publish the same events, in another order at
most, and after them nothing is left of the difference.
-/

namespace LiveGraph

namespace BlockChanges

/-- A block without changes has no marks. -/
theorem Sound.eq_none {c : BlockChanges} {n : Nat} (h : c.Sound n) (hn : n ≤ 65536)
    (hempty : c.modified = #[]) : c = none n := by
  have hmarks : c.marks = Array.replicate (wordCount n) 0 := by
    apply Array.ext
    · rw [h.size_marks, Array.size_replicate]
    · intro w hw _
      have hcount := h.size_marks
      unfold wordCount at hcount
      rw [Array.getElem_replicate, ← UInt64.toBitVec_inj]
      apply BitVec.eq_of_getLsbD_eq
      intro i hi
      -- bit `i` of word `w` is the mark of an offset, since there are no more words than offsets
      have hoff : (UInt16.ofNat (w * 64 + i)).toNat = w * 64 + i :=
        UInt16.toNat_ofNat_of_lt (by show w * 64 + i < 65536; omega)
      have hclean : c.isMarked (UInt16.ofNat (w * 64 + i)) = false := by
        rw [← Bool.not_eq_true, ← h.mem_modified, hempty]
        simp
      have hword : word (UInt16.ofNat (w * 64 + i)) = w := by
        unfold word
        omega
      have hbit : (UInt16.ofNat (w * 64 + i)).toNat % 64 = i := by omega
      rw [isMarked_eq, hword, hbit, Array.getD_eq_getD_getElem?, Array.getElem?_eq_getElem hw,
        Option.getD_some] at hclean
      rw [hclean]
      simp
  calc c = ⟨c.marks, c.modified⟩ := rfl
    _ = none n := by rw [hmarks, hempty, none]

end BlockChanges

namespace Store

variable {ρ τ : Type} [Record ρ]

/-! ## Content -/

/-- The bytes of a slot are those of its record. -/
theorem byte_eq_encode (s : Store ρ τ) (x : Nat) {j : Nat} (hj : j < Record.size ρ) :
    s.image.byte x j = (Record.encode (s.recordAt x)).getD j 0 := by
  have hsize : (s.image.window x (x + 1)).toList.length = Record.size ρ :=
    Snapshot.size_window_slot s.image x
  have hbyte : (s.image.window x (x + 1)).getD j 0 = s.image.byte x j :=
    Snapshot.getD_window_slot s.image hj
  rw [recordAt, Record.encode_decode _ hsize, ← hbyte, List.getD_eq_getElem?_getD,
    Array.getElem?_toList, Array.getD_eq_getD_getElem?]

/-- Every byte of a block is a byte of one of its slots. -/
theorem WellFormed.getD_block {s : Store ρ τ} (h : s.WellFormed) {b k : Nat} {block : Bytes}
    (hblock : s.blocks[b]? = some block) (hk : k < block.size) :
    b * s.config.blockSize + k / Record.size ρ < s.capacity ∧ block.getD k 0
      = s.image.byte (b * s.config.blockSize + k / Record.size ρ) (k % Record.size ρ) := by
  have hsize := h.layout.size_block b block hblock
  rw [hsize, blockBytes, ← Nat.div_lt_iff_lt_mul Record.size_pos, Nat.lt_min] at hk
  have hb : (b * s.config.blockSize + k / Record.size ρ) / s.config.blockSize = b := slot_div b hk.2
  have hoff : (b * s.config.blockSize + k / Record.size ρ) % s.config.blockSize = k / Record.size ρ :=
    slot_mod b hk.2
  refine ⟨by omega, ?_⟩
  rw [byte_image (by rw [hb]; exact hblock), hoff, Nat.div_add_mod']

/-- The blocks of a store are known from its records. -/
theorem WellFormed.blocks_eq {s s' : Store ρ τ} (h : s.WellFormed) (h' : s'.WellFormed)
    (hconfig : s'.config = s.config) (hcap : s'.capacity = s.capacity)
    (hrecord : ∀ x, x < s.capacity → s'.recordAt x = s.recordAt x) : s'.blocks = s.blocks := by
  have hlayout := h'.layout
  rw [hconfig, hcap] at hlayout
  apply Array.ext
  · rw [hlayout.size_blocks, h.layout.size_blocks]
  · intro b hb' hb
    have hget := Array.getElem?_eq_getElem hb
    have hget' := Array.getElem?_eq_getElem hb'
    apply Bytes.ext_getD
    · rw [hlayout.size_block b _ hget', h.layout.size_block b _ hget]
    · intro k hk'
      have hk : k < s.blocks[b].size := by
        rw [h.layout.size_block b _ hget, ← hlayout.size_block b _ hget']
        exact hk'
      obtain ⟨hslot, hbyte⟩ := h.getD_block hget hk
      obtain ⟨-, hbyte'⟩ := h'.getD_block hget' hk'
      have hj : k % Record.size ρ < Record.size ρ := Nat.mod_lt k Record.size_pos
      rw [hbyte', hbyte, hconfig, byte_eq_encode s' _ hj, byte_eq_encode s _ hj, hrecord _ hslot]

/-! ## Changes -/

/-- The two stores hold the same, and the same slots have pending changes. They may have noted these in
another order. -/
structure Interchangeable (s s' : Store ρ τ) : Prop where
  /-- Bytes, side data, free slots and counts are the same. -/
  same : { s' with changes := s.changes, dirtyBlocks := s.dirtyBlocks } = s
  dirty : ∀ x, s.IsDirty x ↔ s'.IsDirty x

omit [Record ρ] in
/-- An offset is noted in a block if its slot has a pending change. -/
theorem mem_modified_iff (s : Store ρ τ) (b : Nat) {o : UInt16} (ho : o.toNat < s.config.blockSize) :
    o ∈ s.modified b ↔ s.IsDirty (b * s.config.blockSize + o.toNat) := by
  rw [IsDirty, slot_div b ho, slot_mod b ho, UInt16.ofNat_toNat]

theorem WellFormed.modified_nodup {s : Store ρ τ} (h : s.WellFormed) (b : Nat) :
    (s.modified b).toList.Nodup ∧ ∀ o ∈ s.modified b, o.toNat < s.config.blockSize := by
  rw [modified]
  split
  · next c hc => exact ⟨(h.tracking.sound b c hc).nodup, (h.tracking.sound b c hc).lt⟩
  · simp

/-- A block is dirty if an offset of it was modified. -/
theorem WellFormed.mem_dirtyBlocks {s : Store ρ τ} (h : s.WellFormed) (b : Nat) :
    b ∈ s.dirtyBlocks ↔ s.modified b ≠ #[] := by
  rw [h.tracking.mem_dirty, modified]
  split
  · next c hc => simp [hc]
  · next hnone => simp [hnone]

namespace Interchangeable

variable {s s' : Store ρ τ}

omit [Record ρ] in
theorem config (h : Interchangeable s s') : s'.config = s.config := (congrArg Store.config h.same :)

omit [Record ρ] in
theorem capacity (h : Interchangeable s s') : s'.capacity = s.capacity :=
  (congrArg Store.capacity h.same :)

theorem image_eq (h : Interchangeable s s') : s'.image = s.image :=
  (congrArg (fun x : Store ρ τ => x.image) h.same :)

/-- Each block has noted the same offsets. -/
theorem modified_perm (hi : Interchangeable s s') (h : s.WellFormed) (h' : s'.WellFormed) (b : Nat) :
    (s.modified b).toList.Perm (s'.modified b).toList := by
  obtain ⟨hnodup, hlt⟩ := h.modified_nodup b
  obtain ⟨hnodup', hlt'⟩ := h'.modified_nodup b
  rw [List.perm_ext_iff_of_nodup hnodup hnodup']
  intro o
  rw [Array.mem_toList_iff, Array.mem_toList_iff]
  constructor
  · intro ho
    have ho' := hlt o ho
    rw [s.mem_modified_iff b ho', hi.dirty, ← hi.config] at ho
    exact (s'.mem_modified_iff b (hi.config ▸ ho')).2 ho
  · intro ho
    have ho' := hlt' o ho
    rw [s'.mem_modified_iff b ho', ← hi.dirty, hi.config] at ho
    exact (s.mem_modified_iff b (hi.config ▸ ho')).2 ho

/-- The same blocks are dirty. -/
theorem dirtyBlocks_perm (hi : Interchangeable s s') (h : s.WellFormed) (h' : s'.WellFormed) :
    s.dirtyBlocks.toList.Perm s'.dirtyBlocks.toList := by
  rw [List.perm_ext_iff_of_nodup h.tracking.nodup h'.tracking.nodup]
  intro b
  have hsize : (s.modified b).size = (s'.modified b).size := (hi.modified_perm h h' b).length_eq
  rw [Array.mem_toList_iff, Array.mem_toList_iff, h.mem_dirtyBlocks, h'.mem_dirtyBlocks, ne_eq, ne_eq,
    ← Array.size_eq_zero_iff, ← Array.size_eq_zero_iff, hsize]

/-- A block is published as a whole in both stores, or slot by slot in both. -/
theorem blockEvents_perm (hi : Interchangeable s s') (h : s.WellFormed) (h' : s'.WellFormed) (b : Nat) :
    (s.blockEvents s.image b).Perm (s'.blockEvents s'.image b) := by
  have hperm := hi.modified_perm h h' b
  have hsize : (s'.modified b).size = (s.modified b).size := hperm.length_eq.symm
  unfold blockEvents
  dsimp only
  rw [hi.image_eq, hi.config, hi.capacity, hsize]
  split
  · exact .refl _
  · exact hperm.map _

/-- The next flushes publish the same events, in another order at most. -/
theorem flushEvents_perm (hi : Interchangeable s s') (h : s.WellFormed) (h' : s'.WellFormed) :
    s.flushEvents.Perm s'.flushEvents := by
  have hblocks : ∀ bs : List Nat,
      (bs.flatMap (s.blockEvents s.image)).Perm (bs.flatMap (s'.blockEvents s'.image)) := by
    intro bs
    induction bs with
    | nil => exact .refl _
    | cons b bs ih => exact (hi.blockEvents_perm h h' b).append ih
  exact (hblocks _).trans ((hi.dirtyBlocks_perm h h').flatMap_right _)

end Interchangeable

/-- After a flush no block has marks. -/
theorem WellFormed.changes_flushed {s : Store ρ τ} (h : s.WellFormed) :
    s.flushed.changes = Array.replicate (blockCount s.config s.capacity) (.none s.config.blockSize) := by
  have htracking := h.flushed.tracking
  apply Array.ext
  · rw [htracking.size_changes, Array.size_replicate]
    rfl
  · intro b hb _
    have hget := Array.getElem?_eq_getElem hb
    rw [Array.getElem_replicate]
    exact (htracking.sound b _ hget).eq_none h.valid.2.2 (h.modified_flushed b _ hget)

/-- Flushes leave nothing of the order of changes. -/
theorem Interchangeable.flushed_eq {s s' : Store ρ τ} (hi : Interchangeable s s') (h : s.WellFormed)
    (h' : s'.WellFormed) : s'.flushed = s.flushed := by
  have hchanges : s'.flushed.changes = s.flushed.changes := by
    rw [h.changes_flushed, h'.changes_flushed, hi.config, hi.capacity]
  have hflushed : s'.flushed = { s' with changes := s'.flushed.changes, dirtyBlocks := #[] } := rfl
  have hsame := congrArg (fun x : Store ρ τ =>
    ({ x with changes := s.flushed.changes, dirtyBlocks := #[] } : Store ρ τ)) hi.same
  rw [hflushed, hchanges]
  exact hsame

/-- Stores that came from one by writing the same slots are interchangeable if they hold the same
records. -/
theorem Overwritten.interchangeable {s s₁ s₂ : Store ρ τ} {written : Nat → Prop}
    (h₁ : Overwritten s written s₁) (h₂ : Overwritten s written s₂)
    (hrecord : ∀ x, x < s.capacity → s₂.recordAt x = s₁.recordAt x) : Interchangeable s₁ s₂ where
  same := by
    have hframe := h₂.frame.trans h₁.frame.symm
    have hblocks : s₂.blocks = s₁.blocks := by
      apply h₁.wellFormed.blocks_eq h₂.wellFormed
      · exact (congrArg Store.config hframe :)
      · exact (congrArg Store.capacity hframe :)
      · rw [h₁.capacity]
        exact hrecord
    have hsame := congrArg (fun x : Store ρ τ => ({ x with
      blocks := s₁.blocks, changes := s₁.changes, dirtyBlocks := s₁.dirtyBlocks } : Store ρ τ)) hframe
    calc ({ s₂ with changes := s₁.changes, dirtyBlocks := s₁.dirtyBlocks } : Store ρ τ)
        = { s₂ with blocks := s₁.blocks, changes := s₁.changes, dirtyBlocks := s₁.dirtyBlocks } := by
          rw [← hblocks]
      _ = s₁ := hsame
  dirty x := by rw [h₁.dirty, h₂.dirty]

end Store

end LiveGraph
