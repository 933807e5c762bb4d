import LiveGraph.Proofs.Bytes
import LiveGraph.Snapshot

/-!
# Snapshots, slot by slot

A snapshot lies in blocks, but every reading of it can be said without them: `Snapshot.byte` is one
byte of one slot, and `Snapshot.window` the bytes of a range of slots. A reading of a sound snapshot
answers a window.
-/

namespace LiveGraph

namespace Snapshot

/-- Byte `j` of a slot. -/
def byte (s : Snapshot) (slot j : Nat) : UInt8 :=
  (s.blocks.getD (slot / s.blockSize) #[]).getD (slot % s.blockSize * s.recordSize + j) 0

/-- The bytes of the slots `start .. stop`, one after the other. -/
def window (s : Snapshot) (start stop : Nat) : Bytes :=
  Array.ofFn fun k : Fin ((stop - start) * s.recordSize) =>
    s.byte (start + k / s.recordSize) (k % s.recordSize)

/-- The blocks hold the bytes of all slots, and these can be counted. -/
structure Sound (s : Snapshot) : Prop where
  blockSize_pos : 0 < s.blockSize
  bytes_lt : s.capacity * s.recordSize < sizeLimit
  /-- The slot behind a block has a number. -/
  next_lt : ∀ b, b * s.blockSize < s.capacity → (b + 1) * s.blockSize < sizeLimit
  block_size : ∀ b, b * s.blockSize < s.capacity → ∃ block, s.blocks[b]? = some block ∧
    min (s.capacity - b * s.blockSize) s.blockSize * s.recordSize ≤ block.size

@[simp] theorem size_window (s : Snapshot) (start stop : Nat) :
    (s.window start stop).size = (stop - start) * s.recordSize := by
  simp [window]

theorem getD_window (s : Snapshot) {start stop k : Nat} (hk : k < (stop - start) * s.recordSize) :
    (s.window start stop).getD k 0 = s.byte (start + k / s.recordSize) (k % s.recordSize) := by
  rw [window, Bytes.getD_ofFn _ hk]

/-- The bytes of one slot. -/
theorem size_window_slot (s : Snapshot) (slot : Nat) :
    (s.window slot (slot + 1)).size = s.recordSize := by
  rw [size_window, Nat.add_sub_cancel_left, Nat.one_mul]

theorem getD_window_slot (s : Snapshot) {slot j : Nat} (hj : j < s.recordSize) :
    (s.window slot (slot + 1)).getD j 0 = s.byte slot j := by
  have hin : j < (slot + 1 - slot) * s.recordSize := by
    rw [Nat.add_sub_cancel_left, Nat.one_mul]
    exact hj
  rw [getD_window s hin, Nat.div_eq_of_lt hj, Nat.mod_eq_of_lt hj, Nat.add_zero]

/-- In bytes that lie slot by slot, the bytes of one slot are a piece. -/
theorem extract_slot (s : Snapshot) {bytes : Bytes} {slot : Nat}
    (hfit : (slot + 1) * s.recordSize ≤ bytes.size)
    (h : ∀ j, j < s.recordSize → bytes.getD (slot * s.recordSize + j) 0 = s.byte slot j) :
    bytes.extract (slot * s.recordSize) ((slot + 1) * s.recordSize) = s.window slot (slot + 1) := by
  apply Bytes.extract_row hfit (size_window_slot s slot)
  intro j hj
  rw [h j hj, getD_window_slot s hj]

/-- An empty range of slots has no bytes. -/
theorem window_self (s : Snapshot) {start stop : Nat} (h : stop ≤ start) :
    s.window start stop = #[] := by
  apply Array.eq_empty_of_size_eq_zero
  rw [size_window, Nat.sub_eq_zero_of_le h, Nat.zero_mul]

/-- Adjacent windows make one window. -/
theorem window_append (s : Snapshot) {a b c : Nat} (hab : a ≤ b) (hbc : b ≤ c) :
    s.window a b ++ s.window b c = s.window a c := by
  have hsplit : (b - a) * s.recordSize + (c - b) * s.recordSize = (c - a) * s.recordSize := by
    rw [← Nat.add_mul]
    congr 1
    omega
  apply Bytes.ext_getD
  · rw [Array.size_append, size_window, size_window, size_window, hsplit]
  · intro k hk
    rw [Array.size_append, size_window, size_window, hsplit] at hk
    rw [getD_window s hk, Bytes.getD_append, size_window]
    by_cases hleft : k < (b - a) * s.recordSize
    · rw [if_pos hleft, getD_window s hleft]
    · rw [if_neg hleft, getD_window s (by omega)]
      -- behind the seam, `k` is the width of the first window plus what is left
      have hpos : 0 < s.recordSize := Nat.pos_of_ne_zero fun h0 => by simp [h0] at hk
      obtain ⟨d, rfl⟩ : ∃ d, k = d + (b - a) * s.recordSize := ⟨k - (b - a) * s.recordSize, by omega⟩
      rw [Nat.add_sub_cancel, Nat.add_mul_div_right _ _ hpos, Nat.add_mul_mod_self_right]
      congr 1
      omega

/-- A part of the window from the first slot on. -/
theorem extract_window (s : Snapshot) {a b c : Nat} (hab : a ≤ b) (hbc : b ≤ c) :
    (s.window 0 c).extract (a * s.recordSize) (b * s.recordSize) = s.window a b := by
  have hfit : b * s.recordSize ≤ (s.window 0 c).size := by
    rw [size_window, Nat.sub_zero]
    exact Nat.mul_le_mul_right _ hbc
  have hsub : b * s.recordSize - a * s.recordSize = (b - a) * s.recordSize :=
    (Nat.sub_mul _ _ _).symm
  have hmul : a * s.recordSize ≤ b * s.recordSize := Nat.mul_le_mul_right _ hab
  apply Bytes.ext_getD
  · rw [Array.size_extract, Nat.min_eq_left hfit, hsub, size_window]
  · intro k hk
    rw [Array.size_extract, Nat.min_eq_left hfit] at hk
    have hin : a * s.recordSize + k < (c - 0) * s.recordSize := by
      rw [size_window] at hfit
      omega
    have hpos : 0 < s.recordSize := Nat.pos_of_ne_zero fun h0 => by simp [h0] at hk
    rw [Bytes.getD_extract _ hfit hk, getD_window s hin, getD_window s (hsub ▸ hk), Nat.zero_add,
      Nat.add_comm (a * s.recordSize), Nat.add_mul_div_right _ _ hpos, Nat.add_mul_mod_self_right,
      Nat.add_comm a]

/-! ## Readings -/

theorem product_eq_ok {a b c : Nat} (h : a ≤ c) (hc : c * b < sizeLimit) :
    product a b = .ok (a * b) := by
  have hlt : a * b < sizeLimit := Nat.lt_of_le_of_lt (Nat.mul_le_mul_right b h) hc
  rw [product, mulSize?, if_pos hlt]

theorem sum_eq_ok {a b : Nat} (h : a + b < sizeLimit) : sum a b = .ok (a + b) := by
  rw [sum, addSize?, if_pos h]

/-- The bytes of the slots of block `b` among `start .. stop`. -/
def piece (s : Snapshot) (start stop b : Nat) : Bytes :=
  s.window (max (b * s.blockSize) start) (min ((b + 1) * s.blockSize) stop)

/-- The blocks of a range are numbered from the one of its first slot on, and each has a slot in the
range. -/
theorem getElem?_blocksIn {s : Snapshot} (hpos : 0 < s.blockSize) {start stop i b : Nat}
    (h : (s.blocksIn start stop)[i]? = some b) :
    b = start / s.blockSize + i ∧ start < stop ∧ b * s.blockSize < stop ∧
      start < (b + 1) * s.blockSize := by
  rw [blocksIn] at h
  by_cases hlt : start < stop
  · rw [if_pos hlt] at h
    obtain ⟨hi, heq⟩ := List.getElem?_eq_some_iff.1 h
    rw [List.getElem_range', Nat.one_mul] at heq
    rw [List.length_range'] at hi
    subst heq
    have hlast : start / s.blockSize + i ≤ (stop - 1) / s.blockSize := by omega
    have hmul : (start / s.blockSize + i) * s.blockSize ≤ stop - 1 :=
      (Nat.le_div_iff_mul_le hpos).1 hlast
    have hfirst : start < (start / s.blockSize + 1) * s.blockSize := by
      rw [Nat.add_mul, Nat.one_mul]
      exact Nat.lt_div_mul_add hpos
    have hgrow : (start / s.blockSize + 1) * s.blockSize
        ≤ (start / s.blockSize + i + 1) * s.blockSize := Nat.mul_le_mul_right _ (by omega)
    exact ⟨rfl, hlt, by omega, by omega⟩
  · rw [if_neg hlt] at h
    simp at h

/-- The pieces of consecutive blocks, put together. -/
private theorem joined_range' (s : Snapshot) {start stop : Nat} (n b : Nat)
    (hpos : 0 < s.blockSize) (hhi : start < (b + 1) * s.blockSize)
    (hlo : (b + n) * s.blockSize < stop) :
    Bytes.joined ((List.range' b (n + 1)).map (s.piece start stop))
      = s.window (max (b * s.blockSize) start) (min ((b + n + 1) * s.blockSize) stop) := by
  -- on the number of pieces, with the first block free
  induction n generalizing b with
  | zero => simp [piece]
  | succ n ih =>
    have hnext : (b + 1) * s.blockSize ≤ (b + (n + 1)) * s.blockSize :=
      Nat.mul_le_mul_right _ (by omega)
    have hwidth : (b + 1) * s.blockSize = b * s.blockSize + s.blockSize := by
      rw [Nat.add_mul, Nat.one_mul]
    have hwidth' : (b + 1 + 1) * s.blockSize = (b + 1) * s.blockSize + s.blockSize := by
      rw [Nat.add_mul (b + 1), Nat.one_mul]
    have hrest := ih (b + 1) (by omega) (by rw [Nat.add_right_comm]; exact hlo)
    -- the first piece ends where the others start
    have hseam : min ((b + 1) * s.blockSize) stop = max ((b + 1) * s.blockSize) start := by omega
    have hlast : (b + 1 + n + 1) * s.blockSize = (b + (n + 1) + 1) * s.blockSize := by
      congr 1
      omega
    have hgrow : (b + (n + 1)) * s.blockSize ≤ (b + (n + 1) + 1) * s.blockSize :=
      Nat.mul_le_mul_right _ (by omega)
    rw [List.range'_succ, List.map_cons, Bytes.joined_cons, hrest, piece, hseam,
      window_append s (by omega), hlast]
    rw [hlast]
    omega

/-- The pieces of all blocks in a range make up the range. -/
theorem joined_blocksIn {s : Snapshot} (hpos : 0 < s.blockSize) {start stop : Nat}
    (hle : start ≤ stop) :
    Bytes.joined ((s.blocksIn start stop).map (s.piece start stop)) = s.window start stop := by
  by_cases hlt : start < stop
  · have hfirst : start / s.blockSize * s.blockSize ≤ start := Nat.div_mul_le_self _ _
    have hfirst' : start < (start / s.blockSize + 1) * s.blockSize := by
      rw [Nat.add_mul, Nat.one_mul]
      exact Nat.lt_div_mul_add hpos
    have hlast : (stop - 1) / s.blockSize * s.blockSize ≤ stop - 1 := Nat.div_mul_le_self _ _
    have hlast' : stop - 1 < ((stop - 1) / s.blockSize + 1) * s.blockSize := by
      rw [Nat.add_mul, Nat.one_mul]
      exact Nat.lt_div_mul_add hpos
    have hmono : start / s.blockSize ≤ (stop - 1) / s.blockSize := Nat.div_le_div_right (by omega)
    rw [blocksIn, if_pos hlt]
    dsimp only
    generalize start / s.blockSize = first at *
    generalize (stop - 1) / s.blockSize = last at *
    obtain ⟨n, rfl⟩ : ∃ n, last = first + n := ⟨last - first, by omega⟩
    have hcount : first + n + 1 - first = n + 1 := by omega
    have hmax : max (first * s.blockSize) start = start := by omega
    have hmin : min ((first + n + 1) * s.blockSize) stop = stop := by omega
    rw [hcount, joined_range' s n first hpos hfirst' (by omega), hmax, hmin]
  · rw [blocksIn, if_neg hlt, window_self s (by omega)]
    rfl

namespace Sound

variable {s : Snapshot}

/-- Inside one block, the bytes of a range of slots lie in one piece. -/
theorem extract_block (h : s.Sound) {b : Nat} {block : Bytes} (start stop : Nat)
    (hblock : s.blocks[b]? = some block) (hstart : b * s.blockSize ≤ start) (hle : start ≤ stop)
    (hstop : stop ≤ (b + 1) * s.blockSize)
    (hsize : (stop - b * s.blockSize) * s.recordSize ≤ block.size) :
    block.extract (start % s.blockSize * s.recordSize)
      (start % s.blockSize * s.recordSize + (stop - start) * s.recordSize)
      = s.window start stop := by
  have hwidth : (b + 1) * s.blockSize = b * s.blockSize + s.blockSize := by
    rw [Nat.add_mul, Nat.one_mul]
  by_cases hempty : start = stop
  · rw [hempty, Nat.sub_self, Nat.zero_mul, Nat.add_zero, window_self s (Nat.le_refl _)]
    apply Array.eq_empty_of_size_eq_zero
    rw [Array.size_extract]
    omega
  -- the slots of block `b` are `b * blockSize + d` with `d` below the block size
  have hslot : ∀ slot, b * s.blockSize ≤ slot → slot < (b + 1) * s.blockSize →
      slot / s.blockSize = b ∧ slot % s.blockSize = slot - b * s.blockSize := by
    intro slot hlo hhi
    have hd : slot = slot - b * s.blockSize + b * s.blockSize := by omega
    have hlt : slot - b * s.blockSize < s.blockSize := by omega
    constructor
    · rw [hd, Nat.add_mul_div_right _ _ h.blockSize_pos, Nat.div_eq_of_lt hlt, Nat.zero_add]
    · rw [hd, Nat.add_mul_mod_self_right, Nat.mod_eq_of_lt hlt, ← hd]
  have hfirst := (hslot start hstart (by omega)).2
  have hend : start % s.blockSize * s.recordSize + (stop - start) * s.recordSize
      = (stop - b * s.blockSize) * s.recordSize := by
    rw [hfirst, ← Nat.add_mul]
    congr 1
    omega
  have hcount : (stop - b * s.blockSize) * s.recordSize - start % s.blockSize * s.recordSize
      = (stop - start) * s.recordSize := by omega
  rw [hend]
  apply Bytes.ext_getD
  · rw [size_window, Array.size_extract, Nat.min_eq_left hsize, hcount]
  · intro k hk
    rw [Array.size_extract, Nat.min_eq_left hsize, hcount] at hk
    rw [getD_window s hk, Bytes.getD_extract _ hsize (by rw [hcount]; exact hk)]
    have hpos : 0 < s.recordSize := Nat.pos_of_ne_zero fun h0 => by simp [h0] at hk
    have hdecomp := Nat.div_add_mod k s.recordSize
    have hquot : k / s.recordSize < stop - start := (Nat.div_lt_iff_lt_mul hpos).2 hk
    generalize k / s.recordSize = q at hdecomp hquot ⊢
    generalize k % s.recordSize = j at hdecomp ⊢
    obtain ⟨hdiv, hmod⟩ := hslot (start + q) (by omega) (by omega)
    have hget : s.blocks.getD b #[] = block := by
      rw [Array.getD_eq_getD_getElem?, hblock, Option.getD_some]
    have hsum : start + q - b * s.blockSize = start - b * s.blockSize + q := by omega
    rw [byte, hdiv, hmod, hget, hfirst, hsum, ← hdecomp, Nat.add_mul, Nat.mul_comm q, Nat.add_assoc]

/-- The piece of a block in a range of slots lies in the block without a gap. -/
theorem exists_piece (h : s.Sound) {b start stop : Nat} (hle : start ≤ stop)
    (hcap : stop ≤ s.capacity) (hlo : b * s.blockSize < stop)
    (hhi : start < (b + 1) * s.blockSize) :
    ∃ block : Bytes, s.blocks[b]? = some block ∧
      max (b * s.blockSize) start % s.blockSize * s.recordSize + (s.piece start stop b).size
        ≤ block.size ∧
      block.extract (max (b * s.blockSize) start % s.blockSize * s.recordSize)
        (max (b * s.blockSize) start % s.blockSize * s.recordSize + (s.piece start stop b).size)
        = s.piece start stop b := by
  have hwidth : (b + 1) * s.blockSize = b * s.blockSize + s.blockSize := by
    rw [Nat.add_mul, Nat.one_mul]
  have hpos := h.blockSize_pos
  obtain ⟨block, hblock, hbytes⟩ := h.block_size b (by omega)
  rw [piece, size_window]
  generalize hstart' : max (b * s.blockSize) start = start'
  generalize hstop' : min ((b + 1) * s.blockSize) stop = stop'
  have hsize : (stop' - b * s.blockSize) * s.recordSize ≤ block.size := by
    refine Nat.le_trans (Nat.mul_le_mul_right _ ?_) hbytes
    omega
  have hext := h.extract_block start' stop' hblock (by omega) (by omega) (by omega) hsize
  refine ⟨block, hblock, ?_, hext⟩
  refine Nat.le_trans ?_ hsize
  rw [← Nat.add_mul]
  apply Nat.mul_le_mul_right
  have hd : start' = start' - b * s.blockSize + b * s.blockSize := by omega
  have hlt : start' - b * s.blockSize < s.blockSize := by omega
  -- the first slot of the piece lies in block `b`, so its offset is its distance from the start of it
  have hm : start' % s.blockSize = start' - b * s.blockSize := by
    rw [hd, Nat.add_mul_mod_self_right, Nat.mod_eq_of_lt hlt, ← hd]
  omega

/-- The part of one block that lies in a range of slots. -/
theorem chunk_eq (h : s.Sound) {b start stop : Nat} (hle : start ≤ stop)
    (hcap : stop ≤ s.capacity) (hlo : b * s.blockSize < stop)
    (hhi : start < (b + 1) * s.blockSize) :
    s.chunk start stop b = .ok (s.piece start stop b) := by
  obtain ⟨block, hblock, hfit, hext⟩ := h.exists_piece hle hcap hlo hhi
  have hread : s.block b = .ok block := by rw [Snapshot.block, hblock]
  have hnext := h.next_lt b (Nat.lt_of_lt_of_le hlo hcap)
  rw [chunk, product_eq_ok (Nat.le_refl (b + 1)) hnext, ← hext]
  rw [piece, size_window] at hfit ⊢
  generalize hstart' : max (b * s.blockSize) start = start' at hfit ⊢
  generalize hstop' : min ((b + 1) * s.blockSize) stop = stop' at hfit ⊢
  have hstop : stop' ≤ s.capacity := by omega
  have hmod : start' % s.blockSize ≤ start' := Nat.mod_le _ _
  have hstart : start' ≤ stop' := by
    have hpos := h.blockSize_pos
    rw [Nat.add_mul, Nat.one_mul] at hstop' hhi
    omega
  have hsum : start' % s.blockSize * s.recordSize + (stop' - start') * s.recordSize < sizeLimit := by
    rw [← Nat.add_mul]
    exact Nat.lt_of_le_of_lt (Nat.mul_le_mul_right _ (by omega)) h.bytes_lt
  -- none of the sizes overflows, since the piece ends within the capacity
  simp only [hstop', product_eq_ok (Nat.le_trans hmod (Nat.le_trans hstart hstop)) h.bytes_lt,
    product_eq_ok (show stop' - start' ≤ s.capacity by omega) h.bytes_lt, sum_eq_ok hsum, hread,
    bind, Except.bind]
  exact Bytes.slice_eq_ok (Nat.le_add_right _ _) hfit

/-- A range of slots, as far as the snapshot has them, comes in one piece per block. -/
theorem chunks_eq (h : s.Sound) (start stop : Nat) :
    s.chunks start stop
      = .ok ((s.blocksIn (min start (min stop s.capacity)) (min stop s.capacity)).map
          (s.piece (min start (min stop s.capacity)) (min stop s.capacity))) := by
  rw [chunks]
  apply mapM_of_ok
  intro b hb
  obtain ⟨i, hi⟩ := List.mem_iff_getElem?.1 hb
  obtain ⟨-, -, hlo, hhi⟩ := getElem?_blocksIn h.blockSize_pos hi
  exact h.chunk_eq (Nat.min_le_right _ _) (Nat.min_le_right _ _) hlo hhi

/-- A range of slots, as far as the snapshot has them. -/
theorem rangeBytes_eq (h : s.Sound) (start stop : Nat) :
    s.rangeBytes start stop
      = .ok (s.window (min start (min stop s.capacity)) (min stop s.capacity)) := by
  rw [rangeBytes, h.chunks_eq, ← joined_blocksIn h.blockSize_pos (Nat.min_le_right _ _)]
  rfl

/-- All slots of the snapshot. -/
theorem toBytes_eq (h : s.Sound) : s.toBytes = .ok (s.window 0 s.capacity) := by
  rw [toBytes, h.rangeBytes_eq, Nat.min_self, Nat.zero_min]

/-- A slot lies in its block without a gap. -/
theorem exists_slot (h : s.Sound) {slot : Nat} (hslot : slot < s.capacity) :
    ∃ block : Bytes, s.blocks[slot / s.blockSize]? = some block ∧
      slot % s.blockSize * s.recordSize + s.recordSize ≤ block.size ∧
      block.extract (slot % s.blockSize * s.recordSize)
        (slot % s.blockSize * s.recordSize + s.recordSize) = s.window slot (slot + 1) := by
  have hlo : slot / s.blockSize * s.blockSize ≤ slot := Nat.div_mul_le_self _ _
  have hhi : slot < (slot / s.blockSize + 1) * s.blockSize := by
    rw [Nat.add_mul, Nat.one_mul]
    exact Nat.lt_div_mul_add h.blockSize_pos
  have hpiece : s.piece slot (slot + 1) (slot / s.blockSize) = s.window slot (slot + 1) := by
    rw [piece, Nat.max_eq_right hlo, Nat.min_eq_right hhi]
  have hexists := h.exists_piece (Nat.le_succ slot) hslot (Nat.lt_succ_of_le hlo) hhi
  rw [hpiece, size_window_slot, Nat.max_eq_right hlo] at hexists
  exact hexists

/-- One slot of the snapshot. -/
theorem slotBytes_eq (h : s.Sound) {slot : Nat} (hslot : slot < s.capacity) :
    s.slotBytes slot = .ok (s.window slot (slot + 1)) := by
  obtain ⟨block, hblock, hfit, hext⟩ := h.exists_slot hslot
  have hmod : slot % s.blockSize ≤ s.capacity :=
    Nat.le_trans (Nat.mod_le _ _) (Nat.le_of_lt hslot)
  rw [slotBytes, if_neg (by omega)]
  have hsum : slot % s.blockSize * s.recordSize + s.recordSize < sizeLimit := by
    rw [← Nat.succ_mul]
    refine Nat.lt_of_le_of_lt (Nat.mul_le_mul_right _ ?_) h.bytes_lt
    have := Nat.mod_le slot s.blockSize
    omega
  simp only [product_eq_ok hmod h.bytes_lt, sum_eq_ok hsum, Snapshot.block, hblock, bind,
    Except.bind]
  rw [Bytes.slice_eq_ok (Nat.le_add_right _ _) hfit, hext]

/-- A range of slots is copied to the front of what has room for it. -/
theorem copyRange_eq (h : s.Sound) {start stop lo hi : Nat} (hhi : hi = min stop s.capacity)
    (hlo : lo = min start hi) (dst : Bytes) :
    s.copyRange start stop dst
      = if dst.size < (hi - lo) * s.recordSize then .error .outOfRange
        else .ok ((hi - lo) * s.recordSize,
          s.window lo hi ++ dst.extract ((hi - lo) * s.recordSize) dst.size) := by
  have hsize := size_window s lo hi
  rw [copyRange, h.rangeBytes_eq, ← hhi, ← hlo]
  show (if dst.size < (s.window lo hi).size then _ else _) = _
  rw [hsize]
  by_cases hshort : dst.size < (hi - lo) * s.recordSize
  · rw [if_pos hshort, if_pos hshort]
  · rw [if_neg hshort, if_neg hshort, Bytes.overwrite_front (by omega), hsize]

/-- Copying a range of slots over as many bytes leaves exactly these slots. -/
theorem copyRange_exact (h : s.Sound) {start stop : Nat} {dst : Bytes} (hle : start ≤ stop)
    (hcap : stop ≤ s.capacity) (hdst : dst.size = (stop - start) * s.recordSize) :
    s.copyRange start stop dst = .ok (dst.size, s.window start stop) := by
  rw [h.copyRange_eq (Nat.min_eq_left hcap).symm (Nat.min_eq_left hle).symm, if_neg (by omega),
    ← hdst, Array.extract_eq_empty_of_le (Nat.min_le_left _ _), Array.append_empty]

end Sound

end Snapshot

end LiveGraph
