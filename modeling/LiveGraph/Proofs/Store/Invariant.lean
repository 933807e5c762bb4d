import LiveGraph.Proofs.Snapshot
import LiveGraph.Proofs.Store.Tracking

/-!
# The representation of a store

A store keeps seven arrays and lists that must fit each other. `Store.WellFormed` says how: the
blocks have room for exactly `capacity` slots, the free list holds the free slots once each, and the
changes are tracked. The content of the array is then a snapshot, `Store.image`, and every part of an
edit (writing bytes, marking, freeing, growing) is told by what it does to the bytes of each slot.
-/

namespace LiveGraph

namespace Store

variable {ρ τ : Type} [Record ρ]

/-! ## Blocks -/

/-- There are as many blocks as the capacity asks for, and each has the bytes of its slots. -/
structure Layout (ρ : Type) [Record ρ] (config : StoreConfig) (capacity : Nat)
    (blocks : Array Bytes) : Prop where
  size_blocks : blocks.size = blockCount config capacity
  size_block : ∀ (b : Nat) (block : Bytes), blocks[b]? = some block →
    block.size = blockBytes ρ config capacity b

namespace Layout

variable {config : StoreConfig} {capacity : Nat} {blocks : Array Bytes}

/-- Below the capacity there is a block, with all its bytes. -/
theorem exists_block (h : Layout ρ config capacity blocks) (hv : config.Valid) {b : Nat}
    (hb : b * config.blockSize < capacity) :
    ∃ block : Bytes, blocks[b]? = some block ∧ block.size = blockBytes ρ config capacity b := by
  have hlt : b < blocks.size := by
    rw [h.size_blocks, lt_blockCount hv]
    exact hb
  exact ⟨_, Array.getElem?_eq_getElem hlt, h.size_block b _ (Array.getElem?_eq_getElem hlt)⟩

/-- The first `n` blocks have the bytes of the slots before block `n`. -/
private theorem foldl_blockBytes (config : StoreConfig) (capacity n : Nat) :
    (List.range n).foldl (fun size b => size + blockBytes ρ config capacity b) 0
      = min (n * config.blockSize) capacity * Record.size ρ := by
  induction n with
  | zero =>
    rw [Nat.zero_mul, Nat.zero_min, Nat.zero_mul]
    rfl
  | succ n ih =>
    rw [List.range_succ, List.foldl_append, ih, List.foldl_cons, List.foldl_nil, blockBytes, ← Nat.add_mul,
      Nat.add_mul n, Nat.one_mul]
    congr 1
    omega

/-- The blocks together have the bytes of all slots. -/
theorem foldl_size (h : Layout ρ config capacity blocks) (hv : config.Valid) :
    blocks.toList.foldl (fun size block => size + block.size) 0 = capacity * Record.size ρ := by
  have hlist : blocks.toList.map (·.size)
      = (List.range (blockCount config capacity)).map (blockBytes ρ config capacity) := by
    apply List.ext_getElem
    · simp [h.size_blocks]
    · intro b hb _
      have hlt : b < blocks.size := by simpa using hb
      have := h.size_block b _ (Array.getElem?_eq_getElem hlt)
      simpa using this
  -- the last block may be short, but no slot lies behind it
  have hcover : ¬ blockCount config capacity * config.blockSize < capacity := by
    rw [← lt_blockCount hv]
    exact Nat.lt_irrefl _
  rw [← List.foldl_map, hlist, List.foldl_map, foldl_blockBytes, Nat.min_eq_right (Nat.le_of_not_lt hcover)]

end Layout

/-! ## Free slots -/

/-- The free list holds the slots that are marked as free, each once; they were handed out. -/
structure FreeList (len capacity : Nat) (free : List Nat) (isFree : Array Bool) : Prop where
  size_isFree : isFree.size = capacity
  nodup : free.Nodup
  mem_free : ∀ slot, slot ∈ free ↔ isFree.getD slot false = true
  lt_len : ∀ slot ∈ free, slot < len

/-! ## Capacities -/

/-- A capacity that a store can have: a power of two or none, for which there is memory. -/
structure Feasible (ρ : Type) [Record ρ] (capacity : Nat) : Prop where
  power : capacity = 0 ∨ ∃ k, capacity = Nat.pow 2 k
  fits : capacity * Record.sideSize ρ < arrayLimit

omit [Record ρ] in
/-- Something is kept beside every record. -/
theorem sideSize_pos (ρ : Type) [Record ρ] : 0 < Record.sideSize ρ := by
  have hsize := Record.size_lt (ρ := ρ)
  omega

/-- Fewer slots than the limit have room. -/
theorem Feasible.lt_arrayLimit {capacity : Nat} (h : Feasible ρ capacity) : capacity < arrayLimit :=
  Nat.lt_of_le_of_lt (Nat.le_mul_of_pos_right capacity (sideSize_pos ρ)) h.fits

/-- Slots that have room can be counted. -/
theorem Feasible.lt_sizeLimit {capacity : Nat} (h : Feasible ρ capacity) : capacity < sizeLimit :=
  Nat.lt_trans h.lt_arrayLimit (by decide)

/-- The data beside the records takes a power of two of bytes, so below the limit on arrays it is at most half
of it. -/
theorem Feasible.side_le {capacity : Nat} (h : Feasible ρ capacity) :
    capacity * Record.sideSize ρ ≤ Nat.pow 2 62 := by
  rcases h.power with rfl | ⟨k, rfl⟩
  · rw [Nat.zero_mul]
    exact Nat.zero_le _
  · obtain ⟨j, hj⟩ := Record.sideSize_power (ρ := ρ)
    have hpower : Nat.pow 2 k * Record.sideSize ρ = Nat.pow 2 (k + j) := by
      rw [hj]
      exact (Nat.pow_add 2 k j).symm
    have hfits := h.fits
    rw [hpower] at hfits ⊢
    have hkj : k + j < 63 := (Nat.pow_lt_pow_iff_right (by decide : 1 < 2)).1 hfits
    exact Nat.pow_le_pow_right (by decide) (Nat.le_of_lt_succ hkj)

/-- All records together have room in one array, as one reader or another will put them. -/
theorem Feasible.bytes_lt {capacity : Nat} (h : Feasible ρ capacity) :
    capacity * Record.size ρ < arrayLimit := by
  rcases Nat.eq_zero_or_pos capacity with rfl | hpos
  · rw [Nat.zero_mul]
    decide
  · calc capacity * Record.size ρ
      _ < capacity * (2 * Record.sideSize ρ) := Nat.mul_lt_mul_of_pos_left Record.size_lt hpos
      _ = 2 * (capacity * Record.sideSize ρ) := Nat.mul_left_comm ..
      _ ≤ 2 * Nat.pow 2 62 := Nat.mul_le_mul_left 2 h.side_le
      _ = arrayLimit := by decide

/-! ## The invariant -/

/-- The parts of a store fit each other. -/
structure WellFormed (s : Store ρ τ) : Prop where
  valid : s.config.Valid
  fits : Feasible ρ s.capacity
  len_le : s.len ≤ s.capacity
  layout : Layout ρ s.config s.capacity s.blocks
  size_side : s.side.size = s.capacity
  freeList : FreeList s.len s.capacity s.free s.isFree
  tracking : Tracking s.config s.len s.capacity s.changes s.dirtyBlocks

/-- The content of the array. -/
def image (s : Store ρ τ) : Snapshot :=
  { recordSize := Record.size ρ, blockSize := s.config.blockSize, capacity := s.capacity,
    blocks := s.blocks }

/-- The record in a slot, read from the content of the array. -/
def recordAt (s : Store ρ τ) (slot : Nat) : ρ :=
  Record.decode (s.image.window slot (slot + 1)).toList

/-- A byte of the content, read from its block. -/
theorem byte_image {s : Store ρ τ} {x : Nat} {block : Bytes}
    (h : s.blocks[x / s.config.blockSize]? = some block) (j : Nat) :
    s.image.byte x j = block.getD (x % s.config.blockSize * Record.size ρ + j) 0 := by
  have hget : s.blocks.getD (x / s.config.blockSize) #[] = block := by
    rw [Array.getD_eq_getD_getElem?, h, Option.getD_some]
  show (s.blocks.getD (x / s.config.blockSize) #[]).getD _ 0 = _
  rw [hget]
  rfl

theorem WellFormed.blockSize_pos {s : Store ρ τ} (h : s.WellFormed) : 0 < s.config.blockSize :=
  Nat.lt_of_lt_of_le h.valid.1 h.valid.2.1

/-- Every slot that was handed out has its place among the marks of free slots. -/
theorem WellFormed.lt_size_isFree {s : Store ρ τ} (h : s.WellFormed) {slot : Nat}
    (hslot : slot < s.len) : slot < s.isFree.size := by
  rw [h.freeList.size_isFree]
  exact Nat.lt_of_lt_of_le hslot h.len_le

/-- The free slots are distinct and were all handed out. -/
theorem WellFormed.length_free_le {s : Store ρ τ} (h : s.WellFormed) : s.free.length ≤ s.len := by
  have hle : s.free.length ≤ (List.range s.len).length :=
    h.freeList.nodup.length_le_of_subset fun x hx => List.mem_range.2 (h.freeList.lt_len x hx)
  rw [List.length_range] at hle
  exact hle

theorem WellFormed.sound_image {s : Store ρ τ} (h : s.WellFormed) : s.image.Sound where
  blockSize_pos := h.blockSize_pos
  bytes_lt := Nat.lt_trans h.fits.bytes_lt (by decide)
  next_lt b hb := by
    have hslots : s.capacity < 9223372036854775808 := h.fits.lt_arrayLimit
    have hblock : s.config.blockSize ≤ 65536 := h.valid.2.2
    show (b + 1) * s.config.blockSize < 18446744073709551616
    have hb' : b * s.config.blockSize < s.capacity := hb
    rw [Nat.add_mul, Nat.one_mul]
    omega
  block_size b hb := by
    obtain ⟨block, hblock, hsize⟩ := h.layout.exists_block h.valid hb
    exact ⟨block, hblock, Nat.le_of_eq hsize.symm⟩

/-- A snapshot of a store always succeeds. -/
theorem WellFormed.snapshot_eq {s : Store ρ τ} (h : s.WellFormed) : s.snapshot = .ok s.image := by
  have hprod : Snapshot.product s.capacity (Record.size ρ) = .ok (s.capacity * Record.size ρ) :=
    Snapshot.product_eq_ok (Nat.le_refl _) h.sound_image.bytes_lt
  have hsum := h.layout.foldl_size h.valid
  simp [snapshot, Snapshot.ofBlocks, hprod, hsum, bind, Except.bind, image]

/-- Every slot below the capacity has a record. -/
theorem WellFormed.record_eq {s : Store ρ τ} (h : s.WellFormed) {slot : Nat}
    (hslot : slot < s.capacity) : s.record slot = .ok (s.recordAt slot) := by
  obtain ⟨block, hblock, hfit, hext⟩ := h.sound_image.exists_slot hslot
  have hslice := Bytes.slice_eq_ok (Nat.le_add_right _ _) hfit
  rw [hext] at hslice
  have hblock' : s.blocks[slot / s.config.blockSize]? = some block := hblock
  have hslice' : block.slice (slot % s.config.blockSize * Record.size ρ)
      (slot % s.config.blockSize * Record.size ρ + Record.size ρ)
      = .ok (s.image.window slot (slot + 1)) := hslice
  simp [record, locate, hblock', hslice', bind, Except.bind, pure, Except.pure, recordAt]

/-- Every slot below the capacity can be written. -/
theorem WellFormed.hasBytes_eq {s : Store ρ τ} (h : s.WellFormed) {slot : Nat}
    (hslot : slot < s.capacity) : s.hasBytes slot = true := by
  obtain ⟨block, hblock, hfit, -⟩ := h.sound_image.exists_slot hslot
  have hblock' : s.blocks[slot / s.config.blockSize]? = some block := hblock
  simp only [hasBytes, locate, hblock']
  exact decide_eq_true hfit

/-- The empty store. -/
theorem wellFormed_empty {config : StoreConfig} (hv : config.Valid) :
    ({ config } : Store ρ τ).WellFormed where
  valid := hv
  fits := ⟨.inl rfl, by rw [Nat.zero_mul]; decide⟩
  len_le := Nat.le_refl 0
  layout := ⟨by rw [← (tracking_empty hv).size_changes]; rfl, by simp⟩
  size_side := rfl
  freeList := ⟨rfl, List.nodup_nil, by simp, by simp⟩
  tracking := tracking_empty hv

omit [Record ρ] in
/-- A store starts out empty, with a configuration that it accepts. -/
theorem new_eq_ok_iff {config : StoreConfig} {s : Store ρ τ} :
    Store.new config = .ok s ↔ config.Valid ∧ s = { config } := by
  have hvalid := StoreConfig.validate_eq_ok_iff config
  rw [Store.new]
  cases hc : config.validate with
  | ok u =>
    rw [hc] at hvalid
    simp [hvalid.1 rfl, eq_comm]
  | error e =>
    rw [hc] at hvalid
    simp [← hvalid]

/-! ## Writing bytes -/

/-- The store with the bytes of a slot overwritten. -/
def put (s : Store ρ τ) (slot : Nat) (bytes : List UInt8) : Store ρ τ :=
  { s with
    blocks := s.blocks.modify (slot / s.config.blockSize)
      (Bytes.overwrite · (slot % s.config.blockSize * Record.size ρ) bytes) }

/-- Bytes can be overwritten anywhere, because that changes the size of no block. -/
theorem WellFormed.put {s : Store ρ τ} (h : s.WellFormed) (slot : Nat) (bytes : List UInt8) :
    (s.put slot bytes).WellFormed := by
  refine ⟨h.valid, h.fits, h.len_le, ⟨?_, ?_⟩, h.size_side, h.freeList, h.tracking⟩
  · rw [Store.put, Array.size_modify]
    exact h.layout.size_blocks
  · intro b block hblock
    rw [Store.put, Array.getElem?_modify] at hblock
    split at hblock
    · obtain ⟨old, hold, rfl⟩ := Option.map_eq_some_iff.1 hblock
      rw [Bytes.size_overwrite]
      exact h.layout.size_block b old hold
    · exact h.layout.size_block b block hblock

/-- Overwriting a slot changes its bytes and those of no other slot. -/
theorem WellFormed.byte_put {s : Store ρ τ} (h : s.WellFormed) {slot x j : Nat} {bytes : List UInt8}
    (hbytes : bytes.length = Record.size ρ) (hx : x < s.capacity) (hj : j < Record.size ρ) :
    (s.put slot bytes).image.byte x j
      = if x = slot then bytes.getD j 0 else s.image.byte x j := by
  have hmod := Nat.div_add_mod x s.config.blockSize
  have hmod' := Nat.div_add_mod slot s.config.blockSize
  obtain ⟨block, hblock, hsize, -⟩ := h.sound_image.exists_slot hx
  have hblock' : s.blocks[x / s.config.blockSize]? = some block := hblock
  have hsize' : x % s.config.blockSize * Record.size ρ + Record.size ρ ≤ block.size := hsize
  -- at most the block of the slot has changed
  have hnew : (s.put slot bytes).blocks[x / s.config.blockSize]?
      = some (if slot / s.config.blockSize = x / s.config.blockSize
          then block.overwrite (slot % s.config.blockSize * Record.size ρ) bytes else block) := by
    rw [Store.put, Array.getElem?_modify, hblock']
    split <;> rfl
  have hconfig : (s.put slot bytes).config = s.config := rfl
  rw [byte_image hblock', byte_image hnew, hconfig]
  by_cases hb : slot / s.config.blockSize = x / s.config.blockSize
  · have hrow : slot % s.config.blockSize * Record.size ρ + Record.size ρ
        = (slot % s.config.blockSize + 1) * Record.size ρ := by
      rw [Nat.add_mul, Nat.one_mul]
    rw [if_pos hb, Bytes.getD_overwrite, hbytes, hrow]
    simp only [slot_lt_iff hj]
    by_cases hxs : x = slot
    · subst hxs
      rw [if_pos ⟨by omega, by omega, by omega⟩, if_pos rfl]
      congr 1
      omega
    · -- in one block, another slot has another offset
      have hne : x % s.config.blockSize ≠ slot % s.config.blockSize := by
        intro heq
        rw [hb, ← heq] at hmod'
        omega
      rw [if_neg hxs, if_neg]
      rintro ⟨hlo, hhi, -⟩
      have hlt : ¬ x % s.config.blockSize < slot % s.config.blockSize := by
        rw [← slot_lt_iff hj]
        omega
      omega
  · have hxs : x ≠ slot := fun heq => hb (heq ▸ rfl)
    rw [if_neg hb, if_neg hxs]

/-! ## Marking, freeing and handing out -/

/-- A slot of the store can be marked. -/
theorem WellFormed.mark {s : Store ρ τ} (h : s.WellFormed) {slot : Nat} (hslot : slot < s.len) :
    (s.mark slot).WellFormed :=
  ⟨h.valid, h.fits, h.len_le, h.layout, h.size_side, h.freeList,
    h.tracking.mark h.valid hslot h.len_le⟩

omit [Record ρ] in
/-- Freeing a slot touches the free list only. -/
theorem release_eq (s : Store ρ τ) (slot : Nat) :
    s.release slot = { s with free := (s.release slot).free, isFree := (s.release slot).isFree } := by
  rw [Store.release]
  split <;> rfl

omit [Record ρ] in
@[simp] theorem len_release (s : Store ρ τ) (slot : Nat) : (s.release slot).len = s.len := by
  rw [release_eq]

/-- A slot of the store can be freed, also one that is free already. -/
theorem WellFormed.release {s : Store ρ τ} (h : s.WellFormed) {slot : Nat} (hslot : slot < s.len) :
    (s.release slot).WellFormed := by
  rw [Store.release]
  split
  · exact h
  · next hfree =>
    -- not being marked as free, the slot is not in the list yet
    have hnew : slot ∉ s.free := fun hin => hfree ((h.freeList.mem_free slot).1 hin)
    have hin := h.lt_size_isFree hslot
    refine ⟨h.valid, h.fits, h.len_le, h.layout, h.size_side, ⟨?_, ?_, fun x => ?_, ?_⟩, h.tracking⟩
    · rw [Array.size_setIfInBounds, h.freeList.size_isFree]
    · exact List.nodup_cons.2 ⟨hnew, h.freeList.nodup⟩
    · rw [List.mem_cons, h.freeList.mem_free, getD_setIfInBounds]
      by_cases hx : slot = x
      · subst hx
        simp [hin]
      · simp [hx, Ne.symm hx]
    · intro x hx
      rcases List.mem_cons.1 hx with rfl | hx
      · exact hslot
      · exact h.freeList.lt_len x hx

/-- The store with its last freed slot handed out again. -/
def recycled (s : Store ρ τ) (slot : Nat) (free : List Nat) : Store ρ τ :=
  { s with free, isFree := s.isFree.setIfInBounds slot false }

/-- The first free slot can be handed out. -/
theorem WellFormed.recycled {s : Store ρ τ} (h : s.WellFormed) {slot : Nat} {free : List Nat}
    (hfree : s.free = slot :: free) : (s.recycled slot free).WellFormed := by
  have hnodup := h.freeList.nodup
  rw [hfree, List.nodup_cons] at hnodup
  -- the slot stood once in the free list, so it is not in the rest of it
  have hmem : ∀ x, x = slot ∨ x ∈ free ↔ s.isFree.getD x false = true := by
    intro x
    rw [← List.mem_cons, ← hfree]
    exact h.freeList.mem_free x
  have hlt : ∀ x ∈ free, x < s.len := by
    intro x hx
    apply h.freeList.lt_len
    rw [hfree]
    exact List.mem_cons_of_mem _ hx
  refine ⟨h.valid, h.fits, h.len_le, h.layout, h.size_side,
    ⟨?_, hnodup.2, fun x => ?_, hlt⟩, h.tracking⟩
  · rw [Store.recycled, Array.size_setIfInBounds, h.freeList.size_isFree]
  · have hin := h.lt_size_isFree (h.freeList.lt_len slot (by rw [hfree]; exact List.mem_cons_self))
    rw [Store.recycled, getD_setIfInBounds]
    by_cases hx : slot = x
    · subst hx
      simp [hin, hnodup.1]
    · have hother : ¬ (slot = x ∧ x < s.isFree.size) := fun hc => hx hc.1
      rw [if_neg hother, ← hmem]
      constructor
      · exact .inr
      · rintro (heq | hin)
        · exact absurd heq.symm hx
        · exact hin

theorem WellFormed.modifySide {s : Store ρ τ} (h : s.WellFormed) (slot : Nat) (f : τ → τ) :
    ({ s with side := s.side.modify slot f } : Store ρ τ).WellFormed :=
  ⟨h.valid, h.fits, h.len_le, h.layout, by rw [Array.size_modify, h.size_side], h.freeList,
    h.tracking⟩

/-! ## Growing -/

/-- More slots are handed out, where there is room. -/
theorem WellFormed.extend {s : Store ρ τ} (h : s.WellFormed) {len : Nat} (hlen : s.len ≤ len)
    (hcap : len ≤ s.capacity) : ({ s with len } : Store ρ τ).WellFormed := by
  refine ⟨h.valid, h.fits, hcap, h.layout, h.size_side, ?_, ?_⟩
  · exact ⟨h.freeList.size_isFree, h.freeList.nodup, h.freeList.mem_free,
      fun x hx => Nat.lt_of_lt_of_le (h.freeList.lt_len x hx) hlen⟩
  · refine ⟨h.tracking.size_changes, h.tracking.sound, ?_, h.tracking.nodup, h.tracking.mem_dirty⟩
    intro b c hc o ho
    exact Nat.lt_of_lt_of_le (h.tracking.lt_len b c hc o ho) hlen

theorem size_padded {α : Type} (a : Array α) {n : Nat} (x : α) (h : a.size ≤ n) :
    (padded a n x).size = n := by
  rw [padded, Array.size_append, Array.size_replicate]
  omega

/-- Padding with the default does not show. -/
theorem getD_padded {α : Type} (a : Array α) (n k : Nat) (x : α) :
    (padded a n x).getD k x = a.getD k x := by
  rw [padded, Array.getD_eq_getD_getElem?, Array.getD_eq_getD_getElem?, Array.getElem?_append]
  split
  · rfl
  · next hk =>
    rw [Array.getElem?_replicate, Array.getElem?_eq_none (Nat.le_of_not_lt hk)]
    split <;> rfl

private theorem getElem?_blocks_grown [Inhabited τ] (s : Store ρ τ) (capacity b : Nat) :
    (s.grown capacity).blocks[b]?
      = if b < blockCount s.config capacity
        then some (Bytes.resize (s.blocks.getD b #[]) (blockBytes ρ s.config capacity b))
        else none := by
  rw [grown, Array.getElem?_map, Array.getElem?_range]
  split <;> rfl

/-- A store can grow to a feasible capacity. -/
theorem WellFormed.grown [Inhabited τ] {s : Store ρ τ} (h : s.WellFormed) {capacity : Nat}
    (hcap : s.capacity ≤ capacity) (hfits : Feasible ρ capacity) :
    (s.grown capacity).WellFormed := by
  refine ⟨h.valid, hfits, Nat.le_trans h.len_le hcap, ⟨?_, ?_⟩, ?_, ⟨?_, h.freeList.nodup, ?_,
    h.freeList.lt_len⟩, h.tracking.grow h.valid (Nat.le_refl _) hcap⟩
  · rw [Store.grown, Array.size_map, Array.size_range]
  · intro b block hblock
    rw [getElem?_blocks_grown] at hblock
    split at hblock
    · cases hblock
      exact Bytes.size_resize _ _
    · cases hblock
  · exact size_padded _ _ (by rw [h.size_side]; exact hcap)
  · exact size_padded _ _ (by rw [h.freeList.size_isFree]; exact hcap)
  · intro x
    show x ∈ s.free ↔ (padded s.isFree capacity false).getD x false = true
    rw [h.freeList.mem_free, getD_padded]

/-- Growing keeps the bytes of all slots, and new slots hold zeros. -/
theorem WellFormed.byte_grown [Inhabited τ] {s : Store ρ τ} (h : s.WellFormed) {capacity x j : Nat}
    (hx : x < capacity) (hj : j < Record.size ρ) :
    (s.grown capacity).image.byte x j = s.image.byte x j := by
  have hmod := Nat.div_add_mod x s.config.blockSize
  rw [Nat.mul_comm] at hmod
  have hlt := Nat.mod_lt x h.blockSize_pos
  have hb : x / s.config.blockSize < blockCount s.config capacity := by
    rw [lt_blockCount h.valid]
    omega
  have hnew : (s.grown capacity).blocks[x / (s.grown capacity).config.blockSize]?
      = some (Bytes.resize (s.blocks.getD (x / s.config.blockSize) #[])
          (blockBytes ρ s.config capacity (x / s.config.blockSize))) := by
    have hconfig : (s.grown capacity).config = s.config := rfl
    rw [hconfig, getElem?_blocks_grown, if_pos hb]
  -- a byte of an old block is where it was; behind it the block is filled with zeros
  rw [byte_image hnew, Bytes.getD_resize]
  · rfl
  · show x % s.config.blockSize * Record.size ρ + j < _
    rw [blockBytes, slot_lt_iff hj]
    omega

end Store

end LiveGraph
