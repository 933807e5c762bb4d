import LiveGraph.Proofs.Store.Elements
import LiveGraph.Proofs.Store.History

/-!
# Stores without blocks

To its callers a store is one byte string, `Flat`, with a count of the slots handed out and a list of
the free ones: growing appends zeros, writing overwrites the bytes of one slot, deleting sets one bit.
`Store.flat` forgets the blocks and the notes about changes, and every operation on the store is the
operation on what is left. So the division into blocks changes neither the slots that are handed out nor
their content.
-/

namespace LiveGraph

/-! ## Deleting a record in its bytes -/

namespace Record

variable {ρ : Type} [Record ρ]

/-- The flags are the last byte of a record. -/
theorem flags_eq (r : ρ) : flags r = (encode r).getD (size ρ - 1) 0 := by
  have hlast : size ρ - 1 < (encode r).length := by
    rw [length_encode]
    exact Nat.sub_lt size_pos Nat.one_pos
  have hbytes : encode (withFlags r ((encode r).getD (size ρ - 1) 0)) = encode r := by
    rw [encode_withFlags, List.getD_eq_getElem?_getD, List.getElem?_eq_getElem hlast,
      Option.getD_some, List.set_getElem_self]
  -- with its own last byte as flags, a record has its own bytes, so it is the same record
  have hsame : withFlags r ((encode r).getD (size ρ - 1) 0) = r := by
    rw [← decode_encode (withFlags r _), hbytes, decode_encode]
  have hflags := flags_withFlags r ((encode r).getD (size ρ - 1) 0)
  rw [hsame] at hflags
  exact hflags

/-- Marking a record as deleted sets one bit of its last byte. -/
theorem encode_markDeleted_decode {l : List UInt8} (hl : l.length = size ρ) :
    encode (markDeleted (decode l : ρ))
      = l.set (size ρ - 1) (l.getD (size ρ - 1) 0 ||| deletedFlag) := by
  rw [markDeleted, encode_withFlags, flags_eq, encode_decode l hl]

/-- Deleting twice is deleting once. -/
theorem markDeleted_markDeleted (r : ρ) : markDeleted (markDeleted r) = markDeleted r := by
  have hflags : flags (markDeleted r) ||| deletedFlag = flags r ||| deletedFlag := by
    rw [markDeleted, flags_withFlags, UInt8.or_assoc, UInt8.or_self]
  have hbytes : encode (markDeleted (markDeleted r)) = encode (markDeleted r) := by
    rw [markDeleted, hflags, encode_withFlags, markDeleted, encode_withFlags, List.set_set]
  rw [← decode_encode (markDeleted (markDeleted r)), hbytes, decode_encode]

/-- The record of a slot that holds zeros. -/
def blank (ρ : Type) [Record ρ] : ρ := decode (List.replicate (size ρ) 0)

end Record

/-! ## The flat array -/

/-- A record array as one byte string. -/
structure Flat (ρ : Type) where
  /-- Slots ever handed out. -/
  len : Nat := 0
  /-- The deleted slots, the one deleted last in front. -/
  free : List Nat := []
  /-- The bytes of all slots, one after the other. -/
  bytes : Bytes := #[]
deriving DecidableEq, Repr

namespace Flat

open Store (Operation Deed)

variable {ρ τ : Type} [Record ρ]

/-- Slots that there are bytes for. -/
def capacity (f : Flat ρ) : Nat := f.bytes.size / Record.size ρ

/-- Hands out the next slots. Where there are no bytes for them, zeros are appended, if there is memory
for what is kept beside them. -/
def extend (f : Flat ρ) (count : Nat) : Option (Deed ρ) × Flat ρ :=
  let needed := f.len + count
  let capacity :=
    if f.capacity < needed then Store.doubled (max f.capacity 1) needed else f.capacity
  if needed < sizeLimit ∧ capacity * Record.sideSize ρ < arrayLimit then
    (some (.handedOut f.len count),
      { f with
        len := needed
        bytes := f.bytes ++ Array.replicate (capacity * Record.size ρ - f.bytes.size) 0 })
  else (none, f)

/-- What an operation does for its caller, and the array it leaves. -/
def perform (f : Flat ρ) : Operation ρ τ → Option (Deed ρ) × Flat ρ
  | .call (.add count) =>
    if count = 0 then (none, f)
    else
      match if count = 1 then f.free else [] with
      | slot :: free => (some (.handedOut slot 1), { f with free })
      | [] => f.extend count
  | .call (.set slot (some r)) =>
    if slot < f.len ∧ slot ∉ f.free then
      (some (.written slot r),
        { f with bytes := f.bytes.overwrite (slot * Record.size ρ) (Record.encode r) })
    else (none, f)
  | .call (.set slot none) =>
    if slot < f.len then
      (some (.deleted slot),
        { f with
          free := if slot ∈ f.free then f.free else slot :: f.free
          bytes := f.bytes.modify ((slot + 1) * Record.size ρ - 1) (· ||| deletedFlag) })
    else (none, f)
  | .call .flush => (some .published, f)
  | .amend _ _ => (none, f)

/-- The next operation is tried; the deeds stand with the last one in front. -/
def next (state : List (Deed ρ) × Flat ρ) (o : Operation ρ τ) : List (Deed ρ) × Flat ρ :=
  ((state.2.perform o).1.toList ++ state.1, (state.2.perform o).2)

/-- The deeds and the array after some operations on an empty one. -/
def run (ops : List (Operation ρ τ)) : List (Deed ρ) × Flat ρ := ops.foldl next ([], {})

end Flat

namespace Store

variable {ρ τ : Type} [Record ρ]

/-! ## The bytes of a store -/

/-- What a store is without its blocks and its notes about changes. -/
def flat (s : Store ρ τ) : Flat ρ :=
  { len := s.len, free := s.free, bytes := s.image.window 0 s.capacity }

theorem size_bytes_flat (s : Store ρ τ) : s.flat.bytes.size = s.capacity * Record.size ρ := by
  rw [flat, Snapshot.size_window, Nat.sub_zero]
  rfl

/-- The flat array has as many slots as the store. -/
theorem capacity_flat (s : Store ρ τ) : s.flat.capacity = s.capacity := by
  rw [Flat.capacity, size_bytes_flat, Nat.mul_div_cancel _ Record.size_pos]

/-- A position in the flat array is a byte of a slot. -/
theorem getD_bytes_flat (s : Store ρ τ) {k : Nat} (hk : k < s.capacity * Record.size ρ) :
    s.flat.bytes.getD k 0 = s.image.byte (k / Record.size ρ) (k % Record.size ρ) := by
  have hin : k < (s.capacity - 0) * s.image.recordSize := hk
  rw [flat, Snapshot.getD_window _ hin, Nat.zero_add]
  rfl

/-- A flat array is known from its bytes, slot by slot. -/
theorem flat_bytes_ext {s : Store ρ τ} {bytes : Bytes}
    (hsize : bytes.size = s.capacity * Record.size ρ)
    (h : ∀ x j, x < s.capacity → j < Record.size ρ →
      s.image.byte x j = bytes.getD (x * Record.size ρ + j) 0) : s.flat.bytes = bytes := by
  apply Bytes.ext_getD
  · rw [size_bytes_flat, hsize]
  · intro k hk
    rw [size_bytes_flat] at hk
    have hslot : k / Record.size ρ < s.capacity := (Nat.div_lt_iff_lt_mul Record.size_pos).2 hk
    have hbyte := h _ _ hslot (Nat.mod_lt k Record.size_pos)
    rw [Nat.div_add_mod'] at hbyte
    rw [getD_bytes_flat s hk, hbyte]

/-- A slot stands at the same place in the flat array, whatever block it is in. -/
theorem getD_slot_flat (s : Store ρ τ) {x j : Nat} (hx : x < s.capacity) (hj : j < Record.size ρ) :
    s.flat.bytes.getD (x * Record.size ρ + j) 0 = s.image.byte x j := by
  rw [getD_bytes_flat s ((slot_lt_iff hj).2 hx), slot_div x hj, slot_mod x hj]

/-- Behind the last slot there are no bytes. -/
theorem WellFormed.byte_beyond {s : Store ρ τ} (h : s.WellFormed) {x : Nat} (hx : s.capacity ≤ x)
    (j : Nat) : s.image.byte x j = 0 := by
  have hmod := Nat.div_add_mod' x s.config.blockSize
  cases hblock : s.blocks[x / s.config.blockSize]? with
  | none =>
    have hget : s.blocks.getD (x / s.config.blockSize) #[] = #[] := by
      rw [Array.getD_eq_getD_getElem?, hblock, Option.getD_none]
    show (s.blocks.getD (x / s.config.blockSize) #[]).getD _ 0 = 0
    rw [hget]
    rfl
  | some block =>
    -- only the last block can be asked for a slot behind the capacity, and it ends there
    have hsize := h.layout.size_block _ block hblock
    have hout : block.size ≤ x % s.config.blockSize * Record.size ρ + j := by
      rw [hsize, blockBytes]
      have hle : min (s.capacity - x / s.config.blockSize * s.config.blockSize) s.config.blockSize
          ≤ x % s.config.blockSize := by omega
      have := Nat.mul_le_mul_right (Record.size ρ) hle
      omega
    rw [byte_image hblock, Array.getD_eq_getD_getElem?, Array.getElem?_eq_none hout,
      Option.getD_none]

/-- Overwriting a slot in its block overwrites it in the flat array. -/
theorem WellFormed.flat_put {s : Store ρ τ} (h : s.WellFormed) {slot : Nat} {bytes : List UInt8}
    (hslot : slot < s.capacity) (hbytes : bytes.length = Record.size ρ) :
    (s.put slot bytes).flat.bytes = s.flat.bytes.overwrite (slot * Record.size ρ) bytes := by
  apply flat_bytes_ext
  · rw [Bytes.size_overwrite, size_bytes_flat]
    rfl
  · intro x j hx hj
    have hin : x * Record.size ρ + j < s.capacity * Record.size ρ := (slot_lt_iff hj).2 hx
    have hrow : slot * Record.size ρ + Record.size ρ = (slot + 1) * Record.size ρ := by
      rw [Nat.add_mul, Nat.one_mul]
    -- a position of the flat array is written over exactly if it lies in the row of `slot`
    rw [h.byte_put hbytes hx hj, Bytes.getD_overwrite, hbytes, size_bytes_flat,
      getD_slot_flat s hx hj, hrow]
    simp only [slot_lt_iff hj]
    by_cases hxs : x = slot
    · subst hxs
      rw [if_pos rfl, if_pos ⟨Nat.le_add_right _ _, Nat.lt_succ_self x, hx⟩, Nat.add_sub_cancel_left]
    · rw [if_neg hxs, if_neg]
      rintro ⟨hlo, hhi, -⟩
      have hge : ¬ x < slot := by
        rw [← slot_lt_iff hj]
        omega
      omega

/-- Growing appends zeros to the flat array. -/
theorem WellFormed.flat_grown [Inhabited τ] {s : Store ρ τ} (h : s.WellFormed) {capacity : Nat}
    (hcap : s.capacity ≤ capacity) :
    (s.grown capacity).flat.bytes = s.flat.bytes
      ++ Array.replicate (capacity * Record.size ρ - s.flat.bytes.size) 0 := by
  have hle := Nat.mul_le_mul_right (Record.size ρ) hcap
  apply flat_bytes_ext
  · rw [Array.size_append, Array.size_replicate, size_bytes_flat]
    show _ = capacity * Record.size ρ
    omega
  · intro x j hx hj
    have hin : x * Record.size ρ + j < capacity * Record.size ρ := (slot_lt_iff hj).2 hx
    have hbyte : (s.grown capacity).image.byte x j = s.image.byte x j := h.byte_grown hx hj
    rw [hbyte, Array.getD_eq_getD_getElem?, Array.getElem?_append, size_bytes_flat]
    simp only [slot_lt_iff hj]
    -- behind the old capacity the store has no bytes yet, and the flat array gets zeros
    by_cases hold : x < s.capacity
    · rw [if_pos hold, ← Array.getD_eq_getD_getElem?, getD_slot_flat s hold hj]
    · have hge : ¬ x * Record.size ρ + j < s.capacity * Record.size ρ := by
        rw [slot_lt_iff hj]
        exact hold
      rw [if_neg hold, h.byte_beyond (Nat.le_of_not_lt hold), Array.getElem?_replicate,
        if_pos (by omega), Option.getD_some]

/-- Deleting a slot sets one bit of the flat array. -/
theorem WellFormed.flat_delete {s : Store ρ τ} (h : s.WellFormed) {slot : Nat}
    (hslot : slot < s.capacity) :
    (s.put slot (Record.encode (Record.markDeleted (s.recordAt slot)))).flat.bytes
      = s.flat.bytes.modify ((slot + 1) * Record.size ρ - 1) (· ||| deletedFlag) := by
  have hpos : 0 < Record.size ρ := Record.size_pos
  have hlength : (s.image.window slot (slot + 1)).toList.length = Record.size ρ := by
    rw [Array.length_toList]
    exact Snapshot.size_window_slot s.image slot
  have hold : ∀ j, j < Record.size ρ →
      (s.image.window slot (slot + 1)).toList.getD j 0 = s.image.byte slot j := by
    intro j hj
    rw [← Snapshot.getD_window_slot s.image hj]
    simp [Array.getD_eq_getD_getElem?, List.getD_eq_getElem?_getD]
  have hlast : (slot + 1) * Record.size ρ - 1 = slot * Record.size ρ + (Record.size ρ - 1) := by
    rw [Nat.add_mul, Nat.one_mul]
    omega
  -- the record is decoded and encoded again, which only changes its last byte
  have hencode := Record.encode_markDeleted_decode (ρ := ρ) hlength
  rw [recordAt, hencode]
  apply flat_bytes_ext
  · rw [Array.size_modify, size_bytes_flat]
    rfl
  · intro x j hx hj
    have hin : x * Record.size ρ + j < s.flat.bytes.size := by
      rw [size_bytes_flat, slot_lt_iff hj]
      exact hx
    have hbyte : Record.size ρ - 1 < Record.size ρ := Nat.sub_lt hpos Nat.one_pos
    rw [h.byte_put (by rw [List.length_set, hlength]) hx hj, hlast, getD_modify,
      getD_slot_flat s hx hj]
    simp only [slot_inj hbyte hj, hin, and_true]
    by_cases hxs : x = slot
    · subst hxs
      rw [if_pos rfl, List.getD_eq_getElem?_getD, List.getElem?_set, hlength, hold _ hbyte]
      by_cases hj' : Record.size ρ - 1 = j
      · subst hj'
        simp [hbyte]
      · rw [if_neg hj', if_neg fun hc => hj' hc.2, ← List.getD_eq_getElem?_getD, hold j hj]
    · rw [if_neg hxs, if_neg fun hc => hxs hc.1.symm]

/-- Freeing a slot changes no bytes. -/
theorem WellFormed.flat_release {s : Store ρ τ} (h : s.WellFormed) (slot : Nat)
    (bytes : List UInt8) :
    (((s.put slot bytes).release slot).mark slot).flat
      = { (s.put slot bytes).flat with
          free := if slot ∈ s.free then s.free else slot :: s.free } := by
  rw [← h.free_delete slot bytes, release_eq]
  rfl

/-! ## Reading a store -/

/-- All bytes of a store, as the readers of its snapshots find them. -/
def content (s : Store ρ τ) : Except Fault Bytes := do
  let buffer ← s.snapshot
  buffer.toBytes

/-- The bytes of one slot, as the readers of a store's snapshots find them. -/
def slotBytes (s : Store ρ τ) (slot : Nat) : Except Fault Bytes := do
  let buffer ← s.snapshot
  buffer.slotBytes slot

/-- The content of a store is the flat array. -/
theorem WellFormed.content_eq {s : Store ρ τ} (h : s.WellFormed) : s.content = .ok s.flat.bytes := by
  rw [content, h.snapshot_eq]
  exact h.sound_image.toBytes_eq

theorem WellFormed.slotBytes_eq {s : Store ρ τ} (h : s.WellFormed) {slot : Nat}
    (hslot : slot < s.capacity) : s.slotBytes slot = .ok (s.image.window slot (slot + 1)) := by
  rw [slotBytes, h.snapshot_eq]
  exact h.sound_image.slotBytes_eq hslot

/-- The bytes of a slot are a piece of the flat array. -/
theorem extract_flat (s : Store ρ τ) {slot : Nat} (hslot : slot < s.capacity) :
    s.flat.bytes.extract (slot * Record.size ρ) ((slot + 1) * Record.size ρ)
      = s.image.window slot (slot + 1) := by
  have hfit : (slot + 1) * Record.size ρ ≤ s.flat.bytes.size := by
    rw [size_bytes_flat]
    exact Nat.mul_le_mul_right _ hslot
  exact Snapshot.extract_slot s.image hfit fun j hj => getD_slot_flat s hslot hj

/-! ## Operations without blocks -/

variable [Inhabited τ]

omit [Inhabited τ] in
/-- Slots that there are bytes for are handed out. -/
theorem WellFormed.extend_flat {s : Store ρ τ} (h : s.WellFormed) {count : Nat}
    (hcap : s.len + count ≤ s.capacity) :
    s.flat.extend count
      = (some (.handedOut s.len count), flat { s with len := s.len + count }) := by
  have hlen : s.flat.len = s.len := rfl
  have hlimit : s.len + count < sizeLimit := Nat.lt_of_le_of_lt hcap h.fits.lt_sizeLimit
  rw [Flat.extend, capacity_flat, hlen, if_neg (Nat.not_lt_of_le hcap), if_pos ⟨hlimit, h.fits.fits⟩,
    size_bytes_flat, Nat.sub_self, Array.replicate_zero, Array.append_empty]
  rfl

/-- Zeros are appended for slots that there are no bytes for. -/
theorem WellFormed.extend_flat_grown {s : Store ρ τ} (h : s.WellFormed) {count : Nat}
    (hfull : s.capacity < s.len + count)
    (hfits : Feasible ρ (s.grownCapacity (s.len + count))) :
    s.flat.extend count = (some (.handedOut s.len count),
      flat { s.grown (s.grownCapacity (s.len + count)) with len := s.len + count }) := by
  have hle := le_grownCapacity s (s.len + count)
  have hlen : s.flat.len = s.len := rfl
  have hlimit : s.len + count < sizeLimit := Nat.lt_of_le_of_lt hle.1 hfits.lt_sizeLimit
  have hdoubled : doubled (max s.capacity 1) (s.len + count) = s.grownCapacity (s.len + count) := rfl
  rw [Flat.extend]
  dsimp only
  rw [capacity_flat, hlen, if_pos hfull, hdoubled, if_pos ⟨hlimit, hfits.fits⟩, ← h.flat_grown hle.2]
  rfl

omit [Inhabited τ] in
/-- Where there is no room, there is none in the flat array either. -/
theorem extend_flat_none {s : Store ρ τ} {count : Nat} (hzero : count ≠ 0)
    (hroom : ¬ s.HasRoom count) : s.flat.extend count = (none, s.flat) := by
  have hlen : s.flat.len = s.len := rfl
  rw [Flat.extend, capacity_flat, hlen, if_neg]
  rintro ⟨hlimit, hfits⟩
  apply hroom
  refine ⟨hzero, .inr ⟨hlimit, ?_⟩⟩
  by_cases hfull : s.capacity < s.len + count
  · rw [if_pos hfull] at hfits
    exact .inr hfits
  · exact .inl (Nat.le_of_not_lt hfull)

omit [Inhabited τ] in
private theorem perform_add {s : Store ρ τ} {count : Nat} (hzero : count ≠ 0)
    (hfree : count = 1 → s.free = []) :
    s.flat.perform (.call (.add count) : Operation ρ τ) = s.flat.extend count := by
  have hnone : (if count = 1 then s.flat.free else []) = [] := by
    split
    · next hone => exact hfree hone
    · rfl
  rw [Flat.perform, if_neg hzero, hnone]

omit [Inhabited τ] in
/-- What the store refuses, the flat array refuses. -/
private theorem perform_refused {s : Store ρ τ} (h : s.WellFormed) {o : Operation ρ τ}
    (ho : ¬ o.Admitted s) : s.flat.perform o = (none, s.flat) := by
  cases o with
  | call c =>
    cases c with
    | add count =>
      by_cases hzero : count = 0
      · rw [Flat.perform, if_pos hzero]
      -- one slot is refused only if no free one is there
      · have hfree : count = 1 → s.free = [] := by
          intro hone
          apply Decidable.byContradiction
          intro hne
          exact ho ⟨hzero, .inl ⟨hone, hne⟩⟩
        rw [perform_add hzero hfree]
        exact extend_flat_none hzero ho
    | set slot value =>
      cases value with
      | none =>
        rw [Flat.perform, if_neg]
        exact ho
      | some r =>
        rw [Flat.perform, if_neg]
        rintro ⟨hslot, hfree⟩
        refine ho ⟨hslot, ?_⟩
        rw [Bool.eq_false_iff]
        exact fun hflag => hfree ((h.freeList.mem_free slot).2 hflag)
    | flush => exact absurd trivial ho
  | amend slot f => rfl

/-- An operation does to the flat array what it does to the store. -/
theorem Outcome.perform_flat {s s' : Store ρ τ} {o : Operation ρ τ} {d : Option (Deed ρ)}
    {events : List Event} (h : s.WellFormed) (hout : Outcome s o d events s') :
    s.flat.perform o = (d, s'.flat) := by
  cases hout with
  | refused ho => exact perform_refused h ho
  | @recycled slot free hfree =>
    have hfront : (if (1 : Nat) = 1 then s.flat.free else []) = slot :: free := hfree
    rw [Flat.perform, if_neg Nat.one_ne_zero, hfront]
    rfl
  | extended hcount hfree hcap =>
    rw [perform_add (Nat.ne_of_gt hcount) hfree]
    exact h.extend_flat hcap
  | grown hcount hfree hfull hfits =>
    rw [perform_add (Nat.ne_of_gt hcount) hfree]
    exact h.extend_flat_grown hfull hfits
  | written slot r hslot hfree =>
    -- the flags and the free list agree about the slot
    have hin : slot ∉ s.flat.free := by
      intro hin
      rw [(h.freeList.mem_free slot).1 hin] at hfree
      cases hfree
    have hcap : slot < s.capacity := Nat.lt_of_lt_of_le hslot h.len_le
    have hput := h.flat_put hcap (Record.length_encode r)
    rw [Flat.perform, if_pos ⟨hslot, hin⟩, ← hput]
    rfl
  | deleted slot hslot =>
    have hcap : slot < s.capacity := Nat.lt_of_lt_of_le hslot h.len_le
    have hlen : s.flat.len = s.len := rfl
    rw [Flat.perform, hlen, if_pos hslot, ← h.flat_delete hcap, h.flat_release]
    rfl
  | published => rfl
  | amended slot f _ => rfl

/-! ## Runs -/

omit [Inhabited τ] in
theorem flat_empty (config : StoreConfig) : ({ config } : Store ρ τ).flat = {} := by
  rw [flat, Snapshot.window_self _ (Nat.le_refl 0)]

/-- The next operation does to the flat array what it does to the store. -/
theorem WellFormed.next_flat {u : Usage ρ τ} (h : u.current.value.WellFormed) (o : Operation ρ τ) :
    Flat.next (u.deeds, u.current.value.flat) o
      = ((u.next o).deeds, (u.next o).current.value.flat) := by
  obtain ⟨new, s', hcurrent, hout⟩ := h.outcome_next o
  rw [Flat.next, hout.perform_flat h, hcurrent]
  rfl

theorem Outcome.capacity_le {s s' : Store ρ τ} {o : Operation ρ τ} {d : Option (Deed ρ)}
    {events : List Event} (hout : Outcome s o d events s') : s.capacity ≤ s'.capacity := by
  cases hout with
  | @grown count _ _ _ _ => exact (le_grownCapacity s (s.len + count)).2
  | deleted slot _ =>
    rw [release_eq]
    exact Nat.le_refl _
  | _ => exact Nat.le_refl _

/-- No operation changes the bytes of a slot that it does not set. -/
theorem Outcome.byte_eq {s s' : Store ρ τ} {o : Operation ρ τ} {d : Option (Deed ρ)}
    {events : List Event} (h : s.WellFormed) (hout : Outcome s o d events s') {x j : Nat}
    (hx : x < s.capacity) (hj : j < Record.size ρ) (hother : ∀ value, o ≠ .call (.set x value)) :
    s'.image.byte x j = s.image.byte x j := by
  cases hout with
  | refused _ => rfl
  | recycled _ => rfl
  | extended _ _ _ => rfl
  | @grown count _ _ _ _ =>
    exact h.byte_grown (Nat.lt_of_lt_of_le hx (le_grownCapacity s (s.len + count)).2) hj
  | written slot r _ _ =>
    have hne : x ≠ slot := fun heq => hother (some r) (by rw [heq])
    have hput : (s.put slot (Record.encode r)).image.byte x j = _ :=
      h.byte_put (Record.length_encode r) hx hj
    rw [if_neg hne] at hput
    exact hput
  | deleted slot _ =>
    have hne : x ≠ slot := fun heq => hother none (by rw [heq])
    have hput : (s.put slot (Record.encode (Record.markDeleted (s.recordAt slot)))).image.byte x j
        = _ := h.byte_put (Record.length_encode _) hx hj
    rw [if_neg hne] at hput
    rw [release_eq]
    exact hput
  | published => rfl
  | amended _ _ _ => rfl

/-! ## Slots that were never written -/

omit [Inhabited τ] in
/-- A slot of zeros holds the blank record. -/
theorem recordAt_eq_blank {s : Store ρ τ} {x : Nat}
    (h : ∀ j, j < Record.size ρ → s.image.byte x j = 0) : s.recordAt x = Record.blank ρ := by
  have hwindow : s.image.window x (x + 1) = Array.replicate (Record.size ρ) 0 := by
    apply Bytes.ext_getD
    · rw [Array.size_replicate]
      exact Snapshot.size_window_slot s.image x
    · intro j hj
      have hj' : j < Record.size ρ := Nat.lt_of_lt_of_eq hj (Snapshot.size_window_slot s.image x)
      have hzero := (Snapshot.getD_window_slot s.image hj').trans (h j hj')
      rw [hzero, Array.getD_eq_getD_getElem?, Array.getElem?_replicate, if_pos hj', Option.getD_some]
  rw [recordAt, hwindow, Array.toList_replicate, Record.blank]

/-- A slot that was never written is blank, but for the mark of a deleted one. -/
structure BlankUnlessWritten (s : Store ρ τ) (deeds : List (Deed ρ)) : Prop where
  lt_len : ∀ x, .deleted x ∈ deeds → x < s.len
  blank : ∀ x, x < s.capacity → (∀ r, .written x r ∉ deeds) → .deleted x ∉ deeds →
    s.recordAt x = Record.blank ρ
  deleted : ∀ x, (∀ r, .written x r ∉ deeds) → .deleted x ∈ deeds →
    s.recordAt x = Record.markDeleted (Record.blank ρ)

omit [Inhabited τ] in
/-- Outcomes that set no slot keep what is there, and new slots are blank. -/
private theorem BlankUnlessWritten.keep {s s' : Store ρ τ} {deeds : List (Deed ρ)}
    {d : Option (Deed ρ)} (hb : s.BlankUnlessWritten deeds) (h : s.WellFormed)
    (hwritten : ∀ x r, d ≠ some (.written x r)) (hdeleted : ∀ x, d ≠ some (.deleted x))
    (hlen : s.len ≤ s'.len) (hold : ∀ x, x < s.capacity → s'.recordAt x = s.recordAt x)
    (hnew : ∀ x, s.capacity ≤ x → x < s'.capacity → s'.recordAt x = Record.blank ρ) :
    s'.BlankUnlessWritten (d.toList ++ deeds) := by
  have hmemw : ∀ x r, .written x r ∈ d.toList ++ deeds ↔ .written x r ∈ deeds := by
    intro x r
    simp [hwritten x r]
  have hmemd : ∀ x, .deleted x ∈ d.toList ++ deeds ↔ .deleted x ∈ deeds := by
    intro x
    simp [hdeleted x]
  refine ⟨fun x hx => ?_, fun x hx hnever halive => ?_, fun x hnever hdead => ?_⟩
  · exact Nat.lt_of_lt_of_le (hb.lt_len x ((hmemd x).1 hx)) hlen
  · have hnever' : ∀ r, .written x r ∉ deeds := fun r hr => hnever r ((hmemw x r).2 hr)
    have halive' : .deleted x ∉ deeds := fun hd => halive ((hmemd x).2 hd)
    by_cases hin : x < s.capacity
    · rw [hold x hin, hb.blank x hin hnever' halive']
    · exact hnew x (Nat.le_of_not_lt hin) hx
  · have hnever' : ∀ r, .written x r ∉ deeds := fun r hr => hnever r ((hmemw x r).2 hr)
    have hdead' := (hmemd x).1 hdead
    rw [hold x (Nat.lt_of_lt_of_le (hb.lt_len x hdead') h.len_le), hb.deleted x hnever' hdead']

omit [Inhabited τ] in
/-- After a write, the slot is one that was written. -/
private theorem BlankUnlessWritten.write {s : Store ρ τ} {deeds : List (Deed ρ)}
    (hb : s.BlankUnlessWritten deeds) (h : s.WellFormed) (slot : Nat) (r : ρ) :
    ((s.put slot (Record.encode r)).mark slot).BlankUnlessWritten (.written slot r :: deeds) := by
  have hrecord : ∀ x, x < s.capacity → (∀ r', .written x r' ∉ Deed.written slot r :: deeds) →
      ((s.put slot (Record.encode r)).mark slot).recordAt x = s.recordAt x := by
    intro x hx hnever
    have hne : x ≠ slot := by
      rintro rfl
      exact hnever r List.mem_cons_self
    have hput : (s.put slot (Record.encode r)).recordAt x = _ := h.recordAt_put r hx
    rw [if_neg hne] at hput
    exact hput
  have hmem : ∀ x, .deleted x ∈ Deed.written slot r :: deeds ↔ .deleted x ∈ deeds := by simp
  refine ⟨fun x hx => hb.lt_len x ((hmem x).1 hx), fun x hx hnever halive => ?_,
    fun x hnever hdead => ?_⟩
  · rw [hrecord x hx hnever]
    rw [hmem] at halive
    exact hb.blank x hx (fun r' hr => hnever r' (List.mem_cons_of_mem _ hr)) halive
  · rw [hmem] at hdead
    rw [hrecord x (Nat.lt_of_lt_of_le (hb.lt_len x hdead) h.len_le) hnever]
    exact hb.deleted x (fun r' hr => hnever r' (List.mem_cons_of_mem _ hr)) hdead

omit [Inhabited τ] in
/-- A slot that was deleted and never written has a blank record with the mark. -/
private theorem BlankUnlessWritten.delete {s : Store ρ τ} {deeds : List (Deed ρ)}
    (hb : s.BlankUnlessWritten deeds) (h : s.WellFormed) {slot : Nat} (hslot : slot < s.len) :
    (((s.put slot (Record.encode (Record.markDeleted (s.recordAt slot)))).release slot).mark
      slot).BlankUnlessWritten (.deleted slot :: deeds) := by
  have hcap : slot < s.capacity := Nat.lt_of_lt_of_le hslot h.len_le
  have hrecord : ∀ x, x < s.capacity →
      (((s.put slot (Record.encode (Record.markDeleted (s.recordAt slot)))).release slot).mark
        slot).recordAt x
        = if x = slot then Record.markDeleted (s.recordAt slot) else s.recordAt x := by
    intro x hx
    exact (recordAt_release _ slot x).trans (h.recordAt_put _ hx)
  have hnever' : ∀ x, (∀ r, .written x r ∉ Deed.deleted slot :: deeds) →
      ∀ r, .written x r ∉ deeds := fun x hnever r hr => hnever r (List.mem_cons_of_mem _ hr)
  refine ⟨fun x hx => ?_, fun x hx hnever halive => ?_, fun x hnever hdead => ?_⟩
  · have hlen : (((s.put slot (Record.encode (Record.markDeleted (s.recordAt slot)))).release
        slot).mark slot).len = s.len := len_release _ slot
    rw [hlen]
    rcases List.mem_cons.1 hx with heq | hold
    · cases heq
      exact hslot
    · exact hb.lt_len x hold
  · have hx' : x < s.capacity := by
      rw [release_eq] at hx
      exact hx
    have hne : x ≠ slot := by
      rintro rfl
      exact halive List.mem_cons_self
    rw [hrecord x hx', if_neg hne]
    exact hb.blank x hx' (hnever' x hnever) fun hd => halive (List.mem_cons_of_mem _ hd)
  · by_cases hxs : x = slot
    · subst hxs
      rw [hrecord x hcap, if_pos rfl]
      -- a slot that was deleted before carries the mark already
      by_cases hold : .deleted x ∈ deeds
      · rw [hb.deleted x (hnever' x hnever) hold, Record.markDeleted_markDeleted]
      · rw [hb.blank x hcap (hnever' x hnever) hold]
    · have hold : .deleted x ∈ deeds := by
        rcases List.mem_cons.1 hdead with heq | hold
        · cases heq
          exact absurd rfl hxs
        · exact hold
      rw [hrecord x (Nat.lt_of_lt_of_le (hb.lt_len x hold) h.len_le), if_neg hxs]
      exact hb.deleted x (hnever' x hnever) hold

/-- Every operation keeps it that slots which were never written are blank. -/
theorem Outcome.blankUnlessWritten {s s' : Store ρ τ} {o : Operation ρ τ} {d : Option (Deed ρ)}
    {events : List Event} {deeds : List (Deed ρ)} (h : s.WellFormed)
    (hout : Outcome s o d events s') (hb : s.BlankUnlessWritten deeds) :
    s'.BlankUnlessWritten (d.toList ++ deeds) := by
  have hnone : ∀ x, s.capacity ≤ x → x < s.capacity → s.recordAt x = Record.blank ρ :=
    fun x hge hlt => absurd hlt (Nat.not_lt_of_le hge)
  cases hout with
  | refused _ => exact hb.keep h (by simp) (by simp) (Nat.le_refl _) (fun _ _ => rfl) hnone
  | recycled _ => exact hb.keep h (by simp) (by simp) (Nat.le_refl _) (fun _ _ => rfl) hnone
  | extended _ _ _ =>
    exact hb.keep h (by simp) (by simp) (Nat.le_add_right _ _) (fun _ _ => rfl) hnone
  -- behind the old capacity all bytes are zero
  | @grown count _ _ _ _ =>
    have hle := (le_grownCapacity s (s.len + count)).2
    refine hb.keep h (by simp) (by simp) (Nat.le_add_right _ _) ?_ ?_
    · intro x hx
      exact recordAt_congr fun j hj => h.byte_grown (Nat.lt_of_lt_of_le hx hle) hj
    · intro x hx hlt
      exact recordAt_eq_blank fun j hj => (h.byte_grown hlt hj).trans (h.byte_beyond hx j)
  | written slot r _ _ => exact hb.write h slot r
  | deleted slot hslot => exact hb.delete h hslot
  | published => exact hb.keep h (by simp) (by simp) (Nat.le_refl _) (fun _ _ => rfl) hnone
  | amended _ _ _ => exact hb.keep h (by simp) (by simp) (Nat.le_refl _) (fun _ _ => rfl) hnone

/-! ## The refinement -/

/-- A store in use is the flat array that the same operations leave. -/
structure RefinesFlat (u : Usage ρ τ) (ops : List (Operation ρ τ)) : Prop where
  /-- The callers are told the same. -/
  deeds : u.deeds = (Flat.run ops).1
  len : u.current.value.len = (Flat.run ops).2.len
  free : u.current.value.free = (Flat.run ops).2.free
  capacity : u.current.value.capacity = (Flat.run ops).2.capacity
  /-- A snapshot holds the bytes of the flat array, in slot order. -/
  content : u.current.value.content = .ok (Flat.run ops).2.bytes
  /-- The record of a slot is what the snapshot holds there. -/
  record : ∀ slot, slot < u.current.value.capacity → ∃ bytes,
    bytes = (Flat.run ops).2.bytes.extract (slot * Record.size ρ) ((slot + 1) * Record.size ρ) ∧
      u.current.value.slotBytes slot = .ok bytes ∧
      u.current.value.record slot = .ok (Record.decode bytes.toList)
  /-- A slot that was neither written nor deleted holds zeros. -/
  blank : ∀ slot, slot < u.current.value.capacity → (∀ r, .written slot r ∉ u.deeds) →
    .deleted slot ∉ u.deeds → u.current.value.record slot = .ok (Record.blank ρ)
  /-- A slot that was deleted without ever being written holds zeros but for the mark. -/
  deleted : ∀ slot, (∀ r, .written slot r ∉ u.deeds) → .deleted slot ∈ u.deeds →
    u.current.value.record slot = .ok (Record.markDeleted (Record.blank ρ))
  /-- An operation changes no byte of a slot that it does not set. -/
  frame : ∀ (o : Operation ρ τ) slot, slot < u.current.value.capacity →
    (∀ value, o ≠ .call (.set slot value)) →
      (u.next o).current.value.slotBytes slot = u.current.value.slotBytes slot

/-- Operations leave the slots alone that they do not set. -/
theorem WellFormed.slotBytes_next {u : Usage ρ τ} (h : u.current.value.WellFormed)
    (o : Operation ρ τ) {slot : Nat} (hslot : slot < u.current.value.capacity)
    (hother : ∀ value, o ≠ .call (.set slot value)) :
    (u.next o).current.value.slotBytes slot = u.current.value.slotBytes slot := by
  obtain ⟨new, s', hcurrent, hout⟩ := h.outcome_next o
  have hcap : slot < s'.capacity := Nat.lt_of_lt_of_le hslot hout.capacity_le
  rw [hcurrent, (hout.step.wellFormed h).slotBytes_eq hcap, h.slotBytes_eq hslot]
  congr 1
  exact Snapshot.window_slot_congr rfl fun j hj => hout.byte_eq h hslot hj hother

/-- Whatever the operations, a store and the flat array agree at the end. -/
theorem refinesFlat_usage {config : StoreConfig} (hv : config.Valid) (ops : List (Operation ρ τ)) :
    RefinesFlat (usage ({ config } : Store ρ τ) ops) ops := by
  have hflat := foldl_view Flat.next (fun u => (u.deeds, u.current.value.flat))
    (fun _ o hu => hu.next_flat o) ops (u := { current := ⟨({ config } : Store ρ τ), #[]⟩ })
    (wellFormed_empty hv)
  have hempty : ({ config } : Store ρ τ).BlankUnlessWritten [] := by
    refine ⟨by simp, fun x hx => ?_, by simp⟩
    exact absurd hx (Nat.not_lt_zero x)
  obtain ⟨h, hb⟩ := usage_induction (ρ := ρ) (τ := τ) (P := BlankUnlessWritten) hv hempty
    (fun h hout hb => hout.blankUnlessWritten h hb) ops
  -- deeds and bytes of the run together, so that each field is read off one equation
  have hrun : Flat.run ops = ((usage ({ config } : Store ρ τ) ops).deeds,
      (usage ({ config } : Store ρ τ) ops).current.value.flat) := by
    rw [Flat.run, ← flat_empty config]
    exact hflat
  generalize usage ({ config } : Store ρ τ) ops = u at h hb hrun ⊢
  refine ⟨by rw [hrun], by rw [hrun]; rfl, by rw [hrun]; rfl, by rw [hrun, capacity_flat],
    by rw [hrun]; exact h.content_eq, fun slot hslot => ?_, fun slot hslot hnever halive => ?_,
    fun slot hnever hdead => ?_, fun o slot hslot => h.slotBytes_next o hslot⟩
  · refine ⟨_, rfl, ?_, ?_⟩
    · rw [hrun, extract_flat _ hslot, h.slotBytes_eq hslot]
    · rw [hrun, extract_flat _ hslot, h.record_eq hslot, recordAt]
  · rw [h.record_eq hslot, hb.blank slot hslot hnever halive]
  · rw [h.record_eq (Nat.lt_of_lt_of_le (hb.lt_len slot hdead) h.len_le),
      hb.deleted slot hnever hdead]

/-- Stores refine the flat array, so two stores with the same operations behind them hand out the same
slots and have the same content, however each is divided into blocks. -/
theorem store_refines_flat {config config' : StoreConfig} (hv : config.Valid) (hv' : config'.Valid)
    (ops : List (Operation ρ τ)) :
    ∃ s₀ s₀' : Store ρ τ, Store.new config = .ok s₀ ∧ Store.new config' = .ok s₀' ∧
      RefinesFlat (s₀.usage ops) ops ∧ RefinesFlat (s₀'.usage ops) ops ∧
      (s₀.usage ops).deeds = (s₀'.usage ops).deeds ∧
      (s₀.usage ops).current.value.content = (s₀'.usage ops).current.value.content := by
  have hflat := refinesFlat_usage (τ := τ) hv ops
  have hflat' := refinesFlat_usage (τ := τ) hv' ops
  refine ⟨{ config }, { config := config' }, new_eq_ok_iff.2 ⟨hv, rfl⟩, new_eq_ok_iff.2 ⟨hv', rfl⟩,
    hflat, hflat', ?_, ?_⟩
  · rw [hflat.deeds, hflat'.deeds]
  · rw [hflat.content, hflat'.content]

/-- Three slots, of which one is deleted and handed out again, in blocks of one slot and in blocks of
three. -/
theorem store_refines_flat_three_slots :
    ({ blockSize := 1, maxModified := 1 } : StoreConfig).Valid ∧
      ({ blockSize := 3, maxModified := 2 } : StoreConfig).Valid ∧
      ∃ s₀ s₀' : Store NodeRecord Unit, Store.new { blockSize := 1, maxModified := 1 } = .ok s₀ ∧
        Store.new { blockSize := 3, maxModified := 2 } = .ok s₀' ∧
        RefinesFlat (s₀.usage [.call (.add 3), .call (.set 1 none), .call .flush, .call (.add 1)])
          [.call (.add 3), .call (.set 1 none), .call .flush, .call (.add 1)] ∧
        (s₀.usage [.call (.add 3), .call (.set 1 none), .call .flush,
            .call (.add 1)]).current.value.content
          = (s₀'.usage [.call (.add 3), .call (.set 1 none), .call .flush,
            .call (.add 1)]).current.value.content := by
  have hone : ({ blockSize := 1, maxModified := 1 } : StoreConfig).Valid := by decide
  have hthree : ({ blockSize := 3, maxModified := 2 } : StoreConfig).Valid := by decide
  obtain ⟨s₀, s₀', hnew, hnew', hflat, -, -, hsame⟩ := store_refines_flat (ρ := NodeRecord)
    (τ := Unit) hone hthree [.call (.add 3), .call (.set 1 none), .call .flush, .call (.add 1)]
  exact ⟨hone, hthree, s₀, s₀', hnew, hnew', hflat, hsame⟩

example : (Flat.run ([.call (.add 3), .call (.set 1 none), .call .flush, .call (.add 1)] :
    List (Operation NodeRecord Unit))).1
      = [.handedOut 1 1, .published, .deleted 1, .handedOut 0 3] := by
  decide +kernel

end Store

end LiveGraph
