import LiveGraph.Proofs.Store.History

/-!
# Snapshots as byte strings

There are three ways to a snapshot: it is cut from one byte string, it is empty, or a store gives it
out. `Snapshot.Holds` says which byte string it then stands for, and `Snapshot.ReadsAs` that no reader
can tell the snapshot from this byte string, except that a range of slots comes in one piece per
block.
-/

namespace LiveGraph

/-! ## Blocks of a store -/

namespace Store

variable {ρ τ : Type} [Record ρ]

/-- The content of a store lies in all its blocks. -/
theorem WellFormed.blocksIn_image {s : Store ρ τ} (h : s.WellFormed) :
    s.image.blocksIn 0 s.capacity = List.range s.blocks.size := by
  have hpos := h.blockSize_pos
  rw [h.layout.size_blocks, blockCount, Snapshot.blocksIn, List.range_eq_range']
  show (if 0 < s.capacity then List.range' (0 / s.config.blockSize)
    ((s.capacity - 1) / s.config.blockSize + 1 - 0 / s.config.blockSize) else []) = _
  rw [Nat.zero_div, Nat.sub_zero]
  by_cases hcap : 0 < s.capacity
  · have hsplit : s.capacity + s.config.blockSize - 1 = s.capacity - 1 + s.config.blockSize := by
      omega
    rw [if_pos hcap, hsplit, Nat.add_div_right _ hpos]
  · have hnone : s.capacity + s.config.blockSize - 1 < s.config.blockSize := by omega
    rw [if_neg hcap, Nat.div_eq_of_lt hnone]
    rfl

/-- A block of a store is a piece of its content, without a rest. -/
theorem WellFormed.block_eq_piece {s : Store ρ τ} (h : s.WellFormed) {b : Nat} {block : Bytes}
    (hblock : s.blocks[b]? = some block) : block = s.image.piece 0 s.capacity b := by
  have hpos := h.blockSize_pos
  obtain ⟨hb, -⟩ := Array.getElem?_eq_some_iff.1 hblock
  rw [h.layout.size_blocks, lt_blockCount h.valid] at hb
  have hnext : 0 < (b + 1) * s.config.blockSize := Nat.mul_pos (Nat.succ_pos b) hpos
  obtain ⟨block', hblock', -, hext⟩ :=
    h.sound_image.exists_piece (Nat.zero_le _) (Nat.le_refl _) hb hnext
  cases hblock'.symm.trans hblock
  -- the piece starts at the front of the block, and the block has no bytes behind it
  have hfront : max (b * s.image.blockSize) 0 % s.image.blockSize * s.image.recordSize = 0 := by
    rw [Nat.max_zero, Nat.mul_mod_left, Nat.zero_mul]
  have hsize : (s.image.piece 0 s.image.capacity b).size = block.size := by
    rw [h.layout.size_block b block hblock, Snapshot.piece, Snapshot.size_window, blockBytes]
    show (min ((b + 1) * s.config.blockSize) s.capacity - max (b * s.config.blockSize) 0)
      * Record.size ρ = _
    rw [Nat.add_mul, Nat.one_mul]
    congr 1
    omega
  rw [hfront, hsize, Nat.zero_add, Array.extract_size] at hext
  exact hext

/-- The blocks of a store, put together, are its content. -/
theorem WellFormed.joined_blocks {s : Store ρ τ} (h : s.WellFormed) :
    Bytes.joined s.blocks.toList = s.image.window 0 s.capacity := by
  have hblocks : s.blocks.toList
      = (s.image.blocksIn 0 s.capacity).map (s.image.piece 0 s.capacity) := by
    rw [h.blocksIn_image]
    apply List.ext_getElem
    · simp
    · intro b hb _
      rw [List.getElem_map, List.getElem_range]
      exact h.block_eq_piece (Array.getElem?_eq_getElem (by simpa using hb))
  rw [hblocks, Snapshot.joined_blocksIn h.blockSize_pos (Nat.zero_le _)]

end Store

namespace Snapshot

/-! ## Where snapshots come from -/

/-- How a snapshot is made, and the byte string that it stands for. -/
inductive Holds : Snapshot → Bytes → Prop
  /-- A snapshot of one byte string has its whole records. -/
  | bytes {recordSize : Nat} {bytes : Bytes} {s : Snapshot} (h : ofBytes recordSize bytes = .ok s) :
      Holds s (bytes.extract 0 (bytes.size / recordSize * recordSize))
  | empty (recordSize : Nat) : Holds (empty recordSize) #[]
  /-- A snapshot of a store in use has the bytes of its blocks. -/
  | store {ρ τ : Type} [Record ρ] [Inhabited τ] {config : StoreConfig} {s₀ : Store ρ τ}
      {s : Snapshot} (hnew : Store.new config = .ok s₀) (ops : List (Store.Operation ρ τ))
      (h : (s₀.usage ops).current.value.snapshot = .ok s) :
      Holds s (Bytes.joined (s₀.usage ops).current.value.blocks.toList)

theorem ofBlocks_eq_ok {blocks : Array Bytes} {recordSize blockSize capacity : Nat} {s : Snapshot}
    (h : ofBlocks blocks recordSize blockSize capacity = .ok s) :
    capacity * recordSize < sizeLimit ∧ s = { recordSize, blockSize, capacity, blocks } := by
  rw [ofBlocks, product, mulSize?] at h
  by_cases hlt : capacity * recordSize < sizeLimit
  · rw [if_pos hlt] at h
    refine ⟨hlt, ?_⟩
    change (if blocks.toList.foldl _ 0 < capacity * recordSize then _ else _) = _ at h
    split at h
    · cases h
    · cases h
      rfl
  · rw [if_neg hlt] at h
    cases h

/-- A snapshot of one byte string is one block. -/
theorem ofBytes_eq_ok {recordSize : Nat} {bytes : Bytes} {s : Snapshot}
    (h : ofBytes recordSize bytes = .ok s) :
    0 < recordSize ∧ bytes.size / recordSize * recordSize < sizeLimit ∧
      s = { recordSize, blockSize := max (bytes.size / recordSize) 1,
            capacity := bytes.size / recordSize, blocks := #[bytes] } := by
  rw [ofBytes] at h
  split at h
  · cases h
  · next hpos => exact ⟨Nat.pos_of_ne_zero hpos, ofBlocks_eq_ok h⟩

/-- The snapshot can be read, and its slots hold a byte string. -/
structure Spells (s : Snapshot) (flat : Bytes) : Prop where
  sound : s.Sound
  recordSize_pos : 0 < s.capacity → 0 < s.recordSize
  flat_eq : flat = s.window 0 s.capacity

/-- A snapshot of an array spells the records that are complete in it. -/
theorem spells_ofBytes {recordSize : Nat} {bytes : Bytes} {s : Snapshot}
    (h : ofBytes recordSize bytes = .ok s) :
    s.Spells (bytes.extract 0 (bytes.size / recordSize * recordSize)) := by
  obtain ⟨hpos, hlt, rfl⟩ := ofBytes_eq_ok h
  have hfit : bytes.size / recordSize * recordSize ≤ bytes.size := Nat.div_mul_le_self _ _
  have hslots : bytes.size / recordSize ≤ bytes.size / recordSize * recordSize :=
    Nat.le_mul_of_pos_right _ hpos
  generalize bytes.size / recordSize = n at hlt hfit hslots ⊢
  -- the only block starts at the first slot
  have hfirst : ∀ b, b * max n 1 < n → b = 0 := by
    intro b hb
    apply Decidable.byContradiction
    intro hne
    have := Nat.le_mul_of_pos_left (max n 1) (Nat.pos_of_ne_zero hne)
    omega
  refine ⟨⟨?_, hlt, ?_, ?_⟩, fun _ => hpos, ?_⟩
  · exact Nat.lt_of_lt_of_le Nat.one_pos (Nat.le_max_right _ _)
  · intro b hb
    cases hfirst b hb
    show (0 + 1) * max n 1 < sizeLimit
    have hb' : 0 * max n 1 < n := hb
    omega
  · intro b hb
    cases hfirst b hb
    refine ⟨bytes, rfl, ?_⟩
    show min (n - 0 * max n 1) (max n 1) * recordSize ≤ bytes.size
    rw [Nat.zero_mul, Nat.sub_zero, Nat.min_eq_left (Nat.le_max_left _ _)]
    exact hfit
  · apply Bytes.ext_getD
    · rw [Array.size_extract, size_window, Nat.min_eq_left hfit]
      rfl
    · intro k hk
      rw [Array.size_extract, Nat.min_eq_left hfit, Nat.sub_zero] at hk
      have hquot : k / recordSize < n := (Nat.div_lt_iff_lt_mul hpos).2 hk
      rw [Bytes.getD_extract _ hfit hk, Nat.zero_add, getD_window _ hk, Nat.zero_add, byte]
      show _ = (#[bytes].getD (k / recordSize / max n 1) #[]).getD
        (k / recordSize % max n 1 * recordSize + k % recordSize) 0
      rw [Nat.div_eq_of_lt (by omega), Nat.mod_eq_of_lt (by omega), Nat.div_add_mod']
      rfl

theorem spells_empty (recordSize : Nat) : (empty recordSize).Spells #[] := by
  refine ⟨⟨Nat.one_pos, ?_, fun b hb => absurd hb (Nat.not_lt_zero _),
    fun b hb => absurd hb (Nat.not_lt_zero _)⟩, fun hcap => absurd hcap (Nat.lt_irrefl 0), ?_⟩
  · show 0 * recordSize < sizeLimit
    rw [Nat.zero_mul]
    decide
  · exact (window_self _ (Nat.le_refl 0)).symm

/-- However it was made, a snapshot spells its byte string. -/
theorem Holds.spells {s : Snapshot} {flat : Bytes} (h : s.Holds flat) : s.Spells flat := by
  cases h with
  | bytes h => exact spells_ofBytes h
  | empty recordSize => exact spells_empty recordSize
  | store hnew ops h =>
    obtain ⟨hv, rfl⟩ := Store.new_eq_ok_iff.1 hnew
    have hformed := Store.wellFormed_usage hv ops
    rw [hformed.snapshot_eq] at h
    cases h
    exact ⟨hformed.sound_image, fun _ => Record.size_pos, hformed.joined_blocks⟩

/-! ## Readings -/

/-- What readers find in a snapshot that stands for a byte string. A range of slots is first cut to
the slots `lo .. hi` that the snapshot has. -/
structure ReadsAs (s : Snapshot) (flat : Bytes) : Prop where
  /-- The byte string has the bytes of all slots. -/
  size_eq : flat.size = s.capacity * s.recordSize
  /-- A range of slots comes in pieces that are not empty. Each lies in a block of its own, and all but
  the first start where their block starts. -/
  chunks : ∀ start stop lo hi, hi = min stop s.capacity → lo = min start hi →
    ∃ parts, s.chunks start stop = .ok parts ∧
      Bytes.joined parts = flat.extract (lo * s.recordSize) (hi * s.recordSize) ∧
      ∀ i part, parts[i]? = some part → 0 < part.size ∧
        ∃ block offset, s.blocks[lo / s.blockSize + i]? = some block ∧
          offset + part.size ≤ block.size ∧ part = block.extract offset (offset + part.size) ∧
          offset = if i = 0 then lo % s.blockSize * s.recordSize else 0
  slot : ∀ slot, slot < s.capacity →
    s.slotBytes slot = .ok (flat.extract (slot * s.recordSize) ((slot + 1) * s.recordSize))
  /-- There are no other slots. -/
  noSlot : ∀ slot, s.capacity ≤ slot → s.slotBytes slot = .error (.beyondCapacity slot s.capacity)
  whole : s.toBytes = .ok flat
  /-- A range of slots is copied to the front of what has room for it, and nothing behind changes. -/
  copy : ∀ start stop lo hi dst, hi = min stop s.capacity → lo = min start hi →
    s.copyRange start stop dst
      = if dst.size < (hi - lo) * s.recordSize then .error .outOfRange
        else .ok ((hi - lo) * s.recordSize,
          flat.extract (lo * s.recordSize) (hi * s.recordSize) ++
            dst.extract ((hi - lo) * s.recordSize) dst.size)

/-- Every piece of a range lies in its block, all but the first at its front. -/
theorem Sound.piece_of_getElem? {s : Snapshot} (h : s.Sound) (hpos : 0 < s.recordSize)
    {lo hi i b : Nat} (hcap : hi ≤ s.capacity) (hb : (s.blocksIn lo hi)[i]? = some b) :
    0 < (s.piece lo hi b).size ∧
      ∃ block offset, s.blocks[lo / s.blockSize + i]? = some block ∧
        offset + (s.piece lo hi b).size ≤ block.size ∧
        s.piece lo hi b = block.extract offset (offset + (s.piece lo hi b).size) ∧
        offset = if i = 0 then lo % s.blockSize * s.recordSize else 0 := by
  obtain ⟨hnumber, hlt, hstart, hend⟩ := getElem?_blocksIn h.blockSize_pos hb
  have hwidth : (b + 1) * s.blockSize = b * s.blockSize + s.blockSize := by
    rw [Nat.add_mul, Nat.one_mul]
  have hblockSize := h.blockSize_pos
  obtain ⟨block, hblock, hfit, hext⟩ := h.exists_piece (Nat.le_of_lt hlt) hcap hstart hend
  refine ⟨?_, block, _, hnumber ▸ hblock, hfit, hext.symm, ?_⟩
  · rw [piece, size_window]
    exact Nat.mul_pos (by omega) hpos
  · by_cases hi : i = 0
    · have hle : b * s.blockSize ≤ lo := by
        rw [hnumber, hi, Nat.add_zero]
        exact Nat.div_mul_le_self _ _
      rw [if_pos hi, Nat.max_eq_right hle]
    · have hnext : lo < (lo / s.blockSize + 1) * s.blockSize := by
        rw [Nat.add_mul, Nat.one_mul]
        exact Nat.lt_div_mul_add hblockSize
      have hle : (lo / s.blockSize + 1) * s.blockSize ≤ b * s.blockSize :=
        Nat.mul_le_mul_right _ (by omega)
      rw [if_neg hi, Nat.max_eq_left (by omega), Nat.mul_mod_left, Nat.zero_mul]

/-- A snapshot reads as the byte string that it stands for, whichever way it was made. -/
theorem reads_as_flat {s : Snapshot} {flat : Bytes} (h : s.Holds flat) : s.ReadsAs flat := by
  obtain ⟨hsound, hpos, rfl⟩ := h.spells
  refine ⟨?_, ?_, ?_, ?_, hsound.toBytes_eq, ?_⟩
  · rw [size_window, Nat.sub_zero]
  · rintro start stop lo hi rfl rfl
    have hcap := Nat.min_le_right stop s.capacity
    have hle := Nat.min_le_right start (min stop s.capacity)
    refine ⟨_, hsound.chunks_eq start stop, ?_, fun i part hpart => ?_⟩
    · rw [joined_blocksIn hsound.blockSize_pos hle, extract_window s hle hcap]
    · rw [List.getElem?_map] at hpart
      obtain ⟨b, hb, rfl⟩ := Option.map_eq_some_iff.1 hpart
      have hlt := (getElem?_blocksIn hsound.blockSize_pos hb).2.1
      exact hsound.piece_of_getElem? (hpos (by omega)) hcap hb
  · intro slot hslot
    rw [hsound.slotBytes_eq hslot, extract_window s (Nat.le_succ slot) hslot]
  · intro slot hslot
    rw [slotBytes, if_pos hslot]
  · rintro start stop lo hi dst hhi hlo
    have hcap : hi ≤ s.capacity := hhi ▸ Nat.min_le_right _ _
    have hle : lo ≤ hi := hlo ▸ Nat.min_le_right _ _
    rw [hsound.copyRange_eq hhi hlo, extract_window s hle hcap]

/-- The content of a store of four slots, of which the last lies in a shorter block of its own. -/
theorem reads_as_flat_short_block :
    ∃ (s : Snapshot) (flat : Bytes), s.Holds flat ∧ s.ReadsAs flat ∧ flat = Array.replicate 64 0 ∧
      (s.chunks 1 9).toOption = some [Array.replicate 32 0, Array.replicate 16 0] ∧
      (s.chunks 3 2).toOption = some [] := by
  have hholds : Holds _ _ := .store (ρ := NodeRecord) (τ := Unit)
    (Store.new_eq_ok_iff.2 ⟨by decide, rfl⟩ :
      Store.new { blockSize := 3, maxModified := 1 } = .ok _)
    [.call (.add 4)] (Store.wellFormed_usage (by decide) _).snapshot_eq
  exact ⟨_, _, hholds, reads_as_flat hholds, by decide +kernel, by decide +kernel, by decide +kernel⟩

end Snapshot

end LiveGraph
