import LiveGraph.Proofs.Store.History

/-!
# No fault from within

The functions of a store read and change its arrays at computed positions. `Store.Checked` has each of
them once more, with every position, difference, sum, product and conversion checked where it is
computed. On a well-formed store the checks never fail: the checked functions do what the others do, and
the only faults left are those that a caller's request brings about.
-/

namespace LiveGraph

/-! ## Checked steps -/

namespace Edit

variable {ε σ α β : Type}

/-- Changes the value, unless the change fails. -/
def tryChange (f : σ → Except ε σ) : Edit ε σ Unit := do
  let value ← ofExcept (f (← read))
  change fun _ => value

theorem ofExcept_of_ok {x : Except ε α} {a : α} (h : x = .ok a) (t : Tracked σ) :
    (ofExcept x : Edit ε σ α) t = .ok a t := by
  rw [h]
  rfl

/-- A change that can fail is made if it does not. -/
theorem tryChange_of_ok {f : σ → Except ε σ} {t : Tracked σ} {value : σ}
    (h : f t.value = .ok value) : (tryChange f) t = .ok () ⟨value, t.events⟩ := by
  rw [tryChange, read_bind, bind_of_ok (ofExcept_of_ok h t)]
  rfl

/-- Edits that do the same here go on the same. -/
theorem bind_congr_left {x y : Edit ε σ α} {t : Tracked σ} (h : x t = y t) (f : α → Edit ε σ β) :
    (x >>= f) t = (y >>= f) t := by
  cases hy : y t with
  | ok a t' => rw [bind_of_ok hy, bind_of_ok (h.trans hy)]
  | error e t' => rw [bind_of_error hy, bind_of_error (h.trans hy)]

end Edit

namespace Store

namespace Checked

variable {α : Type}

/-- The element at a position, which must exist. -/
def fetch (a : Array α) (i : Nat) : Except Fault α :=
  match a[i]? with
  | some x => .ok x
  | none => .error .outOfRange

/-- Changes the element at a position, which must exist. -/
def update (a : Array α) (i : Nat) (f : α → α) : Except Fault (Array α) :=
  if i < a.size then .ok (a.modify i f) else .error .outOfRange

/-- A difference, which must not be negative. -/
def difference (a b : Nat) : Except Fault Nat :=
  if b ≤ a then .ok (a - b) else .error .overflow

/-- A sum, which must be a size. -/
def sum (a b : Nat) : Except Fault Nat :=
  match addSize? a b with
  | some n => .ok n
  | none => .error .overflow

/-- A number of sixteen bits. -/
def narrow (n : Nat) : Except Fault UInt16 :=
  if n < UInt16.size then .ok (UInt16.ofNat n) else .error .overflow

theorem fetch_of_some {a : Array α} {i : Nat} {x : α} (h : a[i]? = some x) : fetch a i = .ok x := by
  rw [fetch, h]

/-- An index within the array is no fault. -/
theorem fetch_of_lt {a : Array α} {i : Nat} (h : i < a.size) (d : α) :
    fetch a i = .ok (a.getD i d) := by
  rw [fetch, Array.getD_eq_getD_getElem?, Array.getElem?_eq_getElem h]
  rfl

/-- An element within the array can be written. -/
theorem update_of_lt {a : Array α} {i : Nat} (h : i < a.size) (f : α → α) :
    update a i f = .ok (a.modify i f) := by
  rw [update, if_pos h]

/-- A difference that is not negative is a size. -/
theorem difference_of_le {a b : Nat} (h : b ≤ a) : difference a b = .ok (a - b) := by
  rw [difference, if_pos h]

/-- A sum within the limit is a size. -/
theorem sum_of_lt {a b : Nat} (h : a + b < sizeLimit) : sum a b = .ok (a + b) := by
  rw [sum, addSize?, if_pos h]

/-- Putting an element in place of another. -/
theorem modify_const (a : Array α) (i : Nat) (x : α) :
    (a.modify i fun _ => x) = a.setIfInBounds i x := by
  apply Array.ext_getElem?
  intro k
  rw [Array.getElem?_modify, Array.getElem?_setIfInBounds]
  by_cases hik : i = k
  · rw [if_pos hik, if_pos hik]
    by_cases hk : i < a.size
    · rw [if_pos hk, Array.getElem?_eq_getElem (hik ▸ hk)]
      rfl
    · rw [if_neg hk, Array.getElem?_eq_none (hik ▸ Nat.le_of_not_lt hk)]
      rfl
  · rw [if_neg hik, if_neg hik]

/-- Putting a changed element in its own place. -/
theorem modify_of_some {a : Array α} {i : Nat} {x : α} (h : a[i]? = some x) (f : α → α) :
    (a.modify i fun _ => f x) = a.modify i f := by
  apply Array.ext_getElem?
  intro k
  rw [Array.getElem?_modify, Array.getElem?_modify]
  by_cases hik : i = k
  · rw [if_pos hik, if_pos hik, ← hik, h]
    rfl
  · rw [if_neg hik, if_neg hik]

/-! ## One block -/

open BlockChanges (word bit)

/-- Notes a change, and tells whether it is a new one. -/
def markOffset (c : BlockChanges) (o : UInt16) : Except Fault (BlockChanges × Bool) := do
  if (← fetch c.marks (word o)) &&& bit o != 0 then return (c, false)
  let marks ← update c.marks (word o) (· ||| bit o)
  return ({ marks, modified := c.modified.push o }, true)

/-- Forgets all changes. -/
def clear (c : BlockChanges) : Except Fault BlockChanges := do
  let marks ← c.modified.toList.foldlM
    (fun marks o => update marks (word o) (· &&& ~~~bit o)) c.marks
  return { marks, modified := #[] }

/-- A block has a word for the mark of each of its slots. -/
theorem markOffset_eq {c : BlockChanges} {n : Nat} (h : c.Sound n) {o : UInt16} (ho : o.toNat < n) :
    markOffset c o = .ok (c.mark o, !c.isMarked o) := by
  have hword := h.word_lt ho
  rw [markOffset, fetch_of_lt hword 0, update_of_lt hword, BlockChanges.mark]
  cases hmark : c.isMarked o with
  | true =>
    rw [BlockChanges.isMarked] at hmark
    simp only [bind, Except.bind, hmark, if_true]
    rfl
  | false =>
    rw [BlockChanges.isMarked] at hmark
    simp only [bind, Except.bind, hmark]
    rfl

/-- The marks of the listed slots can be removed one after the other. -/
private theorem foldlM_update {os : List UInt16} {marks : Array UInt64}
    (h : ∀ o ∈ os, word o < marks.size) :
    os.foldlM (fun marks o => update marks (word o) (· &&& ~~~bit o)) marks
      = .ok (BlockChanges.unmarked marks os) := by
  induction os generalizing marks with
  | nil => rfl
  | cons o os ih =>
    have hrest : ∀ q ∈ os, word q < (marks.modify (word o) (· &&& ~~~bit o)).size := by
      intro q hq
      rw [Array.size_modify]
      exact h q (List.mem_cons_of_mem o hq)
    rw [List.foldlM_cons, update_of_lt (h o List.mem_cons_self)]
    exact ih hrest

/-- Clearing a block touches only marks of slots that it lists. -/
theorem clear_eq {c : BlockChanges} {n : Nat} (h : c.Sound n) : clear c = .ok c.clear := by
  have hwords : ∀ o ∈ c.modified.toList, word o < c.marks.size :=
    fun o ho => h.word_lt (h.lt o (Array.mem_def.2 ho))
  rw [clear, foldlM_update hwords, BlockChanges.clear_eq]
  rfl

/-! ## Marking, freeing and handing out -/

variable {ρ τ : Type}

/-- Notes that a slot changed. -/
def mark (slot : Nat) (s : Store ρ τ) : Except Fault (Store ρ τ) := do
  let b := slot / s.config.blockSize
  let old ← fetch s.changes b
  let (c, isNew) ← markOffset old (← narrow (slot % s.config.blockSize))
  let changes ← update s.changes b fun _ => c
  return { s with
    changes
    dirtyBlocks := if isNew && old.modified.isEmpty then s.dirtyBlocks.push b else s.dirtyBlocks }

/-- Puts a slot on top of the free ones, unless it is free already. -/
def release (slot : Nat) (s : Store ρ τ) : Except Fault (Store ρ τ) := do
  if ← fetch s.isFree slot then return s
  let isFree ← update s.isFree slot fun _ => true
  return { s with free := slot :: s.free, isFree }

/-- Hands out the slot on top of the free ones. -/
def recycle (slot : Nat) (free : List Nat) (s : Store ρ τ) : Except Fault (Store ρ τ) := do
  let isFree ← update s.isFree slot fun _ => false
  return { s with free, isFree }

/-- Forgets the changes of a block. -/
def settle (b : Nat) (s : Store ρ τ) : Except Fault (Store ρ τ) := do
  let c ← clear (← fetch s.changes b)
  return { s with changes := ← update s.changes b fun _ => c }

variable [Record ρ]

omit [Record ρ] in
/-- Offsets within a block fit into 16 bits, because no block is larger. -/
theorem narrow_offset {config : StoreConfig} (hv : config.Valid) (slot : Nat) :
    narrow (slot % config.blockSize) = .ok (UInt16.ofNat (slot % config.blockSize)) := by
  have hlt : slot % config.blockSize < UInt16.size := by
    rw [← toNat_offset hv slot]
    exact UInt16.toNat_lt_size _
  rw [narrow, if_pos hlt]

/-- Marking a slot of the store meets no fault. -/
theorem mark_eq {s : Store ρ τ} (h : s.WellFormed) {slot : Nat} (hslot : slot < s.len) :
    mark slot s = .ok (s.mark slot) := by
  obtain ⟨c, hc⟩ := h.tracking.exists_changes h.valid (Nat.lt_of_lt_of_le hslot h.len_le)
  have hb := (Array.getElem?_eq_some_iff.1 hc).1
  have hoff : (UInt16.ofNat (slot % s.config.blockSize)).toNat < s.config.blockSize := by
    rw [toNat_offset h.valid]
    exact Nat.mod_lt _ h.blockSize_pos
  -- the offset has a word in its block, since it is below the block size
  have hmark := markOffset_eq (h.tracking.sound _ c hc) hoff
  rw [mark, fetch_of_some hc, narrow_offset h.valid]
  simp only [bind, Except.bind, hmark, update_of_lt hb]
  rw [modify_of_some hc (·.mark (UInt16.ofNat (slot % s.config.blockSize))), Store.mark, dirties, hc,
    Bool.and_comm]
  rfl

/-- Freeing a slot of the store meets no fault. -/
theorem release_eq {s : Store ρ τ} (h : s.WellFormed) {slot : Nat} (hslot : slot < s.len) :
    release slot s = .ok (s.release slot) := by
  have hin := h.lt_size_isFree hslot
  rw [release, fetch_of_lt hin false, update_of_lt hin, modify_const, Store.release]
  cases hfree : s.isFree.getD slot false with
  | true => rfl
  | false => rfl

/-- Slots of the free list are within the store. -/
theorem recycle_eq {s : Store ρ τ} (h : s.WellFormed) {slot : Nat} {free : List Nat}
    (hfree : s.free = slot :: free) : recycle slot free s = .ok (s.recycled slot free) := by
  have hin := h.lt_size_isFree (h.freeList.lt_len slot (by rw [hfree]; exact List.mem_cons_self))
  rw [recycle, update_of_lt hin, modify_const]
  rfl

/-! ## Growing -/

/-- The bytes of a block in an array of so many slots. -/
def blockBytes (ρ : Type) [Record ρ] (config : StoreConfig) (capacity b : Nat) :
    Except Fault Nat := do
  let start ← Snapshot.product b config.blockSize
  let rest ← difference capacity start
  Snapshot.product (min rest config.blockSize) (Record.size ρ)

/-- The store with room for `capacity` slots. -/
def grown [Inhabited τ] (capacity : Nat) (s : Store ρ τ) : Except Fault (Store ρ τ) := do
  let blocks ← (List.range (blockCount s.config capacity)).mapM fun b => do
    return Bytes.resize (s.blocks.getD b #[]) (← blockBytes ρ s.config capacity b)
  return { s.grown capacity with blocks := blocks.toArray }

/-- What a block starts with, and how many bytes it has, can be computed below the capacity. -/
theorem blockBytes_eq {config : StoreConfig} {capacity b : Nat}
    (hfits : Feasible ρ capacity) (hb : b * config.blockSize < capacity) :
    blockBytes ρ config capacity b = .ok (Store.blockBytes ρ config capacity b) := by
  have hcap := hfits.lt_sizeLimit
  have hlimit : arrayLimit < sizeLimit := by decide
  have hstart : Snapshot.product b config.blockSize = .ok (b * config.blockSize) :=
    Snapshot.product_eq_ok (Nat.le_refl b) (Nat.lt_trans hb hcap)
  have hbytes : Snapshot.product (min (capacity - b * config.blockSize) config.blockSize)
      (Record.size ρ) = .ok (Store.blockBytes ρ config capacity b) :=
    Snapshot.product_eq_ok (c := capacity) (by omega) (Nat.lt_trans hfits.bytes_lt hlimit)
  rw [blockBytes, hstart]
  simp only [bind, Except.bind, difference_of_le (Nat.le_of_lt hb), hbytes]

/-- A feasible capacity gives all blocks of the larger store. -/
theorem grown_eq [Inhabited τ] {s : Store ρ τ} (h : s.WellFormed) {capacity : Nat}
    (hfits : Feasible ρ capacity) :
    grown capacity s = .ok (s.grown capacity) := by
  -- each block by itself is computed without a fault
  have hblocks : (List.range (blockCount s.config capacity)).mapM (fun b => do
      return Bytes.resize (s.blocks.getD b #[]) (← blockBytes ρ s.config capacity b))
      = .ok ((List.range (blockCount s.config capacity)).map fun b =>
        Bytes.resize (s.blocks.getD b #[]) (Store.blockBytes ρ s.config capacity b)) := by
    apply mapM_of_ok
    intro b hb
    rw [List.mem_range, lt_blockCount h.valid] at hb
    rw [blockBytes_eq hfits hb]
    rfl
  have harray : ((List.range (blockCount s.config capacity)).map fun b =>
        Bytes.resize (s.blocks.getD b #[]) (Store.blockBytes ρ s.config capacity b)).toArray
      = (s.grown capacity).blocks := by
    rw [← Array.toList_inj, Store.grown]
    simp
  rw [grown, hblocks]
  simp only [bind, Except.bind, harray]
  rfl

/-- Makes room for `needed` slots, and publishes the new array. -/
def grow [Inhabited τ] (needed : Nat) : Edit Fault (Store ρ τ) Unit := do
  let capacity := doubled (max (← Edit.read).capacity 1) needed
  if !fitsArray capacity (Record.sideSize ρ) then throw .overflow
  Edit.tryChange (grown capacity)
  let buffer ← Edit.ofExcept (← Edit.read).snapshot
  Edit.publish (.replaced (Record.kind ρ) capacity buffer)

/-- Hands out `count` slots in a row, and answers the first. -/
def add [Inhabited τ] (count : Nat) : Edit Fault (Store ρ τ) Nat := do
  if count = 0 then throw (.emptyRequest (Record.kind ρ))
  let s ← Edit.read
  match if count = 1 then s.free else [] with
  | slot :: free =>
    Edit.tryChange (recycle slot free)
    return slot
  | [] =>
    match addSize? s.len count with
    | none => throw (.tooManySlots (Record.kind ρ) s.len count)
    | some needed =>
      if s.capacity < needed then grow needed
      Edit.change ({ · with len := needed })
      return s.len

/-- Growing fails in the same way with checks and without them. -/
theorem grow_eq [Inhabited τ] {s : Store ρ τ} (h : s.WellFormed) (needed : Nat)
    (events : Array Event) : grow needed ⟨s, events⟩ = Store.grow needed ⟨s, events⟩ := by
  have hdoubled : doubled (max s.capacity 1) needed = s.grownCapacity needed := rfl
  rw [grow, Edit.read_bind, Store.grow, Edit.read_bind, hdoubled]
  by_cases hfits : s.grownCapacity needed * Record.sideSize ρ < arrayLimit
  · have hfit : fitsArray (s.grownCapacity needed) (Record.sideSize ρ) = true := decide_eq_true hfits
    rw [hfit]
    exact Edit.bind_congr_left (Edit.tryChange_of_ok (grown_eq h (h.feasible_grownCapacity hfits))) _
  · have hfit : fitsArray (s.grownCapacity needed) (Record.sideSize ρ) = false := decide_eq_false hfits
    rw [hfit]
    rfl

/-- So does handing out slots. -/
theorem add_eq [Inhabited τ] {s : Store ρ τ} (h : s.WellFormed) (count : Nat)
    (events : Array Event) : add count ⟨s, events⟩ = Store.add count ⟨s, events⟩ := by
  by_cases hzero : count = 0
  · rw [add, Store.add, if_pos hzero, if_pos hzero]
    rfl
  rw [add, Store.add, if_neg hzero, if_neg hzero]
  dsimp only
  rw [Edit.read_bind, Edit.read_bind]
  -- both look at the free list for a single slot only, and grow by the same capacity
  cases hfree : (if count = 1 then s.free else []) with
  | cons slot free =>
    have hone : count = 1 := by
      by_cases hone : count = 1
      · exact hone
      · rw [if_neg hone] at hfree
        cases hfree
    rw [if_pos hone] at hfree
    exact Edit.bind_congr_left (Edit.tryChange_of_ok (recycle_eq h hfree)) _
  | nil =>
    dsimp only
    cases addSize? s.len count with
    | none => rfl
    | some needed =>
      dsimp only
      by_cases hfull : s.capacity < needed
      · rw [if_pos hfull, if_pos hfull]
        exact Edit.bind_congr_left (grow_eq h needed events) _
      · rw [if_neg hfull, if_neg hfull]

/-! ## Writing -/

/-- Writes a record, or deletes the slot. -/
def set (slot : Nat) (value : Option ρ) : Edit Fault (Store ρ τ) Unit := do
  let len := (← Edit.read).len
  if len ≤ slot then throw (.neverAllocated slot len)
  match value with
  | some r =>
    if ← Edit.ofExcept (fetch (← Edit.read).isFree slot) then throw (.freeSlot slot)
    write slot r
  | none =>
    let r ← Edit.ofExcept ((← Edit.read).record slot)
    write slot (Record.markDeleted r)
    Edit.tryChange (release slot)
  Edit.tryChange (mark slot)

/-- Writing a record, deleting one and refusing to do so meet no fault of the checks. -/
theorem set_eq {s : Store ρ τ} (h : s.WellFormed) (slot : Nat) (value : Option ρ)
    (events : Array Event) : set slot value ⟨s, events⟩ = Store.set slot value ⟨s, events⟩ := by
  rw [set, Edit.read_bind]
  by_cases hslot : slot < s.len
  · have hcap := Nat.lt_of_lt_of_le hslot h.len_le
    -- the flag of the slot is there, so looking at it is no fault
    have hin := h.lt_size_isFree hslot
    rw [if_neg (Nat.not_le_of_lt hslot)]
    dsimp only
    cases value with
    | some r =>
      dsimp only
      rw [Edit.read_bind, Edit.bind_of_ok (Edit.ofExcept_of_ok (fetch_of_lt hin false) _)]
      cases hfree : s.isFree.getD slot false with
      | true =>
        rw [set_free r hslot hfree events]
        rfl
      | false =>
        rw [h.set_some r hslot hfree events, if_neg Bool.false_ne_true,
          Edit.bind_of_ok (h.write_eq r hslot events)]
        exact Edit.tryChange_of_ok (mark_eq (h.put _ _) hslot)
    | none =>
      dsimp only
      have hput := h.put slot (Record.encode (Record.markDeleted (s.recordAt slot)))
      have hlen : slot < ((s.put slot (Record.encode (Record.markDeleted
          (s.recordAt slot)))).release slot).len := by
        rw [len_release]
        exact hslot
      rw [Edit.read_bind, Edit.bind_of_ok (Edit.ofExcept_of_ok (h.record_eq hcap) _),
        Edit.bind_of_ok (h.write_eq _ hslot events),
        Edit.bind_of_ok (Edit.tryChange_of_ok (release_eq hput hslot)), h.set_none hslot events]
      exact Edit.tryChange_of_ok (mark_eq (hput.release hslot) hlen)
  · have hle := Nat.le_of_not_lt hslot
    rw [if_pos hle, set_beyond value hle events]
    rfl

/-! ## Flushing -/

/-- The events for one block, reading from a given snapshot. -/
def blockEvents (s : Store ρ τ) (buffer : Snapshot) (b : Nat) : Except Fault (List Event) := do
  let c ← fetch s.changes b
  let start ← Snapshot.product b s.config.blockSize
  if s.config.maxModified ≤ c.modified.size then
    let stop ← sum start s.config.blockSize
    return [.range (Record.kind ρ) start (min stop s.capacity) buffer]
  else
    c.modified.toList.mapM fun o => do
      return .slot (Record.kind ρ) (← sum start o.toNat) buffer

/-- Publishes the changes of a block, and forgets them. -/
def flushBlock (buffer : Snapshot) (b : Nat) : Edit Fault (Store ρ τ) Unit := do
  let events ← Edit.ofExcept (blockEvents (← Edit.read) buffer b)
  events.forM Edit.publish
  Edit.tryChange (settle b)

/-- Publishes the changes since the last flush. -/
def flush : Edit Fault (Store ρ τ) Unit := do
  let s ← Edit.read
  if s.dirtyBlocks.isEmpty then return
  let buffer ← Edit.ofExcept s.snapshot
  Edit.change ({ · with dirtyBlocks := #[] })
  s.dirtyBlocks.toList.forM (flushBlock buffer)

/-- The events of a block that has changes. -/
theorem blockEvents_eq {s : Store ρ τ} (h : s.WellFormed) (buffer : Snapshot) {b : Nat}
    {c : BlockChanges} (hc : s.changes[b]? = some c) :
    blockEvents s buffer b = .ok (s.blockEvents buffer b) := by
  have hb : b * s.config.blockSize < s.capacity := by
    rw [← lt_blockCount h.valid, ← h.tracking.size_changes]
    exact (Array.getElem?_eq_some_iff.1 hc).1
  have hcap := h.fits.lt_sizeLimit
  have hsize : s.config.blockSize ≤ 65536 := h.valid.2.2
  have hstart : Snapshot.product b s.config.blockSize = .ok (b * s.config.blockSize) :=
    Snapshot.product_eq_ok (Nat.le_refl b) (Nat.lt_trans hb hcap)
  -- a block starts below the capacity, which stays so far from the largest size that no block ends
  -- behind it
  have hlimit : arrayLimit + 65536 < sizeLimit := by decide
  have hfits := h.fits.lt_arrayLimit
  rw [blockEvents, fetch_of_some hc, Store.blockEvents, modified_of_getElem? hc]
  simp only [bind, Except.bind, hstart]
  split
  · rw [sum_of_lt (by omega)]
    rfl
  · apply mapM_of_ok
    intro o ho
    have hlen := h.tracking.lt_len b c hc o (Array.mem_def.2 ho)
    have hlen' := h.len_le
    rw [sum_of_lt (by omega)]
    rfl

omit [Record ρ] in
/-- A block of the queue can be cleared. -/
theorem settle_eq {s : Store ρ τ} {b n : Nat} {c : BlockChanges} (hc : s.changes[b]? = some c)
    (hsound : c.Sound n) :
    settle b s = .ok { s with changes := s.changes.modify b (·.clear) } := by
  have hb := (Array.getElem?_eq_some_iff.1 hc).1
  rw [settle, fetch_of_some hc]
  simp only [bind, Except.bind, clear_eq hsound, update_of_lt hb, modify_of_some hc (·.clear)]
  rfl

/-- One block is flushed, in the middle of a flush that has not changed it yet. -/
theorem flushBlock_eq {s : Store ρ τ} (h : s.WellFormed) (buffer : Snapshot) {b : Nat}
    {c : BlockChanges} (hc : s.changes[b]? = some c) {changes : Array BlockChanges}
    (hold : changes[b]? = some c) (dirtyBlocks : Array Nat) (events : Array Event) :
    (flushBlock buffer b : Edit Fault (Store ρ τ) Unit) ⟨{ s with changes, dirtyBlocks }, events⟩
      = .ok () ⟨{ s with changes := changes.modify b (·.clear), dirtyBlocks },
          events ++ (s.blockEvents buffer b).toArray⟩ := by
  have hevents : blockEvents ({ s with changes, dirtyBlocks } : Store ρ τ) buffer b
      = .ok (s.blockEvents buffer b) := by
    rw [← blockEvents_eq h buffer hc, blockEvents, blockEvents, fetch_of_some hc,
      fetch_of_some hold]
  have hsettle : settle b ({ s with changes, dirtyBlocks } : Store ρ τ) = _ :=
    settle_eq hold (h.tracking.sound b c hc)
  rw [flushBlock, Edit.read_bind, Edit.bind_of_ok (Edit.ofExcept_of_ok hevents _),
    Edit.bind_of_ok (Edit.forM_publish _ _)]
  exact Edit.tryChange_of_ok hsettle

/-- Some blocks are flushed one after the other, none of them twice. -/
theorem forM_flushBlock {s : Store ρ τ} (h : s.WellFormed) (buffer : Snapshot) {bs : List Nat}
    (hnodup : bs.Nodup) (hbs : ∀ b ∈ bs, ∃ c, s.changes[b]? = some c)
    {changes : Array BlockChanges} (hold : ∀ b ∈ bs, changes[b]? = s.changes[b]?)
    (dirtyBlocks : Array Nat) (events : Array Event) :
    (bs.forM (flushBlock buffer) : Edit Fault (Store ρ τ) Unit)
        ⟨{ s with changes, dirtyBlocks }, events⟩
      = .ok () ⟨{ s with changes := Store.settle changes bs, dirtyBlocks },
          events ++ (bs.flatMap (s.blockEvents buffer)).toArray⟩ := by
  induction bs generalizing changes events with
  | nil => simp [Store.settle, pure, EStateM.pure]
  | cons b bs ih =>
    obtain ⟨hb, hnodup⟩ := List.nodup_cons.1 hnodup
    obtain ⟨c, hc⟩ := hbs b List.mem_cons_self
    have hblock := flushBlock_eq h buffer hc ((hold b List.mem_cons_self).trans hc) dirtyBlocks events
    -- the other blocks stand as they were
    have hrest : ∀ b' ∈ bs, (changes.modify b (·.clear))[b']? = s.changes[b']? := by
      intro b' hb'
      have hne : b ≠ b' := fun heq => hb (heq ▸ hb')
      rw [Array.getElem?_modify, if_neg hne]
      exact hold b' (List.mem_cons_of_mem b hb')
    rw [Edit.forM_cons_of_ok hblock, ih hnodup (fun b' hb' => hbs b' (List.mem_cons_of_mem b hb')) hrest]
    simp [Store.settle]

/-- A flush meets no fault of the checks: the blocks of the queue and the slots they list are there. -/
theorem flush_eq {s : Store ρ τ} (h : s.WellFormed) (events : Array Event) :
    flush ⟨s, events⟩ = Store.flush ⟨s, events⟩ := by
  cases hempty : s.dirtyBlocks.isEmpty with
  | true =>
    rw [flush, Store.flush, Edit.read_bind, Edit.read_bind, hempty]
    rfl
  | false =>
    have hchange : (Edit.change ({ · with dirtyBlocks := #[] }) : Edit Fault (Store ρ τ) _)
        ⟨s, events⟩ = .ok () ⟨{ s with dirtyBlocks := #[] }, events⟩ := rfl
    -- every block in the queue is there, and stands in the queue once
    have hdirty : ∀ b ∈ s.dirtyBlocks.toList, ∃ c, s.changes[b]? = some c := by
      intro b hb
      obtain ⟨c, hc, -⟩ := (h.tracking.mem_dirty b).1 (Array.mem_def.2 hb)
      exact ⟨c, hc⟩
    have hblocks := forM_flushBlock h s.image h.tracking.nodup hdirty (fun _ _ => rfl) #[] events
    rw [h.flush_eq events, flush, Edit.read_bind, hempty, if_neg Bool.false_ne_true]
    dsimp only
    rw [Edit.bind_of_ok (Edit.ofExcept_of_ok h.snapshot_eq _), Edit.bind_of_ok hchange]
    exact hblocks

/-! ## Reading -/

/-- The slot was handed out, and is neither free nor marked as deleted. -/
def isLive (s : Store ρ τ) (slot : Nat) : Except Fault Bool := do
  if s.len ≤ slot then return false
  if ← fetch s.isFree slot then return false
  return !Record.isDeleted (← s.record slot)

/-- The live slots with their records, in slot order. -/
def live (s : Store ρ τ) : Except Fault (List (Nat × ρ)) := do
  let found ← (List.range s.len).mapM fun slot => do
    if ← isLive s slot then return some (slot, ← s.record slot) else return none
  return found.filterMap id

/-- Slots handed out and not free. -/
def liveCount (s : Store ρ τ) : Except Fault Nat := difference s.len s.free.length

/-- Slots that changed since the last flush. -/
def pendingChanges (s : Store ρ τ) : Except Fault Nat := do
  let offsets ← s.dirtyBlocks.toList.mapM fun b => do return (← fetch s.changes b).modified.toList
  return offsets.flatten.length

/-- Asking whether a slot is live meets no fault. -/
theorem isLive_eq {s : Store ρ τ} (h : s.WellFormed) (slot : Nat) :
    isLive s slot = .ok (s.isLive slot) := by
  by_cases hslot : slot < s.len
  · have hcap := Nat.lt_of_lt_of_le hslot h.len_le
    have hin := h.lt_size_isFree hslot
    rw [isLive, if_neg (Nat.not_le_of_lt hslot), fetch_of_lt hin false, h.record_eq hcap,
      Store.isLive, h.record_eq hcap, decide_eq_true hslot]
    cases s.isFree.getD slot false with
    | true => rfl
    | false => rfl
  · rw [isLive, if_pos (Nat.le_of_not_lt hslot), Store.isLive, decide_eq_false hslot]
    rfl

/-- Listing the live slots meets no fault. -/
theorem live_eq {s : Store ρ τ} (h : s.WellFormed) : live s = .ok s.live := by
  -- slot by slot, and each of them is within the capacity
  have hfound : ∀ slot ∈ List.range s.len,
      (do if ← isLive s slot then return some (slot, ← s.record slot) else return none :
        Except Fault (Option (Nat × ρ)))
        = .ok (if s.isLive slot then s.record slot |>.toOption |>.map (slot, ·) else none) := by
    intro slot hslot
    have hcap := Nat.lt_of_lt_of_le (List.mem_range.1 hslot) h.len_le
    rw [isLive_eq h, h.record_eq hcap]
    cases s.isLive slot with
    | true => rfl
    | false => rfl
  rw [live, mapM_of_ok hfound, Store.live]
  show Except.ok (((List.range s.len).map _).filterMap id) = _
  rw [List.filterMap_map]
  rfl

/-- There are no more free slots than slots. -/
theorem liveCount_eq {s : Store ρ τ} (h : s.WellFormed) : liveCount s = .ok s.liveCount := by
  rw [liveCount, difference_of_le h.length_free_le, Store.liveCount]

theorem pendingChanges_eq {s : Store ρ τ} (h : s.WellFormed) :
    pendingChanges s = .ok s.pendingChanges := by
  have hoffsets : ∀ b ∈ s.dirtyBlocks.toList,
      (do return (← fetch s.changes b).modified.toList : Except Fault (List UInt16))
        = .ok (s.modified b).toList := by
    intro b hb
    obtain ⟨c, hc, -⟩ := (h.tracking.mem_dirty b).1 (Array.mem_def.2 hb)
    rw [fetch_of_some hc, modified_of_getElem? hc]
    rfl
  rw [pendingChanges, mapM_of_ok hoffsets, Store.pendingChanges, List.flatMap_def]
  rfl

end Checked

/-! ## Faults -/

variable {ρ τ : Type} [Record ρ]

/-- A request for slots fails if it asks for none, or for more than can be numbered or held. -/
def AddFault (s : Store ρ τ) (count : Nat) (f : Fault) : Prop :=
  count = 0 ∧ f = .emptyRequest (Record.kind ρ) ∨
    sizeLimit ≤ s.len + count ∧ f = .tooManySlots (Record.kind ρ) s.len count ∨
    arrayLimit ≤ s.grownCapacity (s.len + count) * Record.sideSize ρ ∧ f = .overflow

/-- Setting a slot fails if the slot was never handed out, or is free and to be written. -/
def SetFault (s : Store ρ τ) (slot : Nat) (value : Option ρ) (f : Fault) : Prop :=
  s.len ≤ slot ∧ f = .neverAllocated slot s.len ∨
    slot ∈ s.free ∧ value.isSome ∧ f = .freeSlot slot

/-- Writing fails in two ways only. -/
theorem WellFormed.setFault {s : Store ρ τ} (h : s.WellFormed) {slot : Nat} {value : Option ρ}
    {events : Array Event} {f : Fault} {t : Tracked (Store ρ τ)}
    (heq : set slot value ⟨s, events⟩ = .error f t) : s.SetFault slot value f := by
  by_cases hslot : slot < s.len
  · cases value with
    | none =>
      rw [h.set_none hslot] at heq
      cases heq
    | some r =>
      cases hfree : s.isFree.getD slot false with
      | false =>
        rw [h.set_some r hslot hfree] at heq
        cases heq
      | true =>
        rw [set_free r hslot hfree] at heq
        cases heq
        exact .inr ⟨(h.freeList.mem_free slot).2 hfree, rfl, rfl⟩
  · have hle := Nat.le_of_not_lt hslot
    rw [set_beyond value hle] at heq
    cases heq
    exact .inl ⟨hle, rfl⟩

variable [Inhabited τ]

/-- Handing out slots fails in three ways only. -/
theorem WellFormed.addFault {s : Store ρ τ} (h : s.WellFormed) {count : Nat} {events : Array Event}
    {f : Fault} {t : Tracked (Store ρ τ)} (heq : add count ⟨s, events⟩ = .error f t) :
    s.AddFault count f := by
  by_cases hzero : count = 0
  · subst hzero
    rw [add_zero] at heq
    cases heq
    exact .inl ⟨rfl, rfl⟩
  rw [add, if_neg hzero] at heq
  dsimp only at heq
  rw [Edit.read_bind] at heq
  -- a free slot is handed out without a fault
  cases hfree : (if count = 1 then s.free else []) with
  | cons slot free =>
    rw [hfree] at heq
    cases heq
  | nil =>
    rw [hfree] at heq
    dsimp only at heq
    by_cases hsum : s.len + count < sizeLimit
    · rw [addSize?, if_pos hsum] at heq
      dsimp only at heq
      by_cases hfull : s.capacity < s.len + count
      · have hgrow := h.grow_eq (s.len + count) events
        rw [if_pos hfull] at heq
        by_cases hfits : s.grownCapacity (s.len + count) * Record.sideSize ρ < arrayLimit
        · rw [if_pos hfits] at hgrow
          rw [Edit.bind_of_ok hgrow] at heq
          cases heq
        · rw [if_neg hfits] at hgrow
          rw [Edit.bind_of_error hgrow] at heq
          cases heq
          exact .inr (.inr ⟨Nat.le_of_not_lt hfits, rfl⟩)
      · rw [if_neg hfull] at heq
        cases heq
    · rw [addSize?, if_neg hsum] at heq
      cases heq
      exact .inr (.inl ⟨Nat.le_of_not_lt hsum, rfl⟩)

/-! ## Runs -/

/-- What an operation does, with every step checked. -/
def Operation.checked : Operation ρ τ → Edit Fault (Store ρ τ) Unit
  | call (.add count) => discard (Checked.add count)
  | call (.set slot value) => Checked.set slot value
  | call .flush => Checked.flush
  | amend slot f => modifyData slot f

/-- A store after some operations with every step checked, those that fail included. -/
def checkedRun (s : Store ρ τ) (ops : List (Operation ρ τ)) : Tracked (Store ρ τ) :=
  ops.foldl (fun t o => o.checked.after t) ⟨s, #[]⟩

/-- One operation does the same with checks and without them. -/
theorem WellFormed.after_checked {s : Store ρ τ} (h : s.WellFormed) (o : Operation ρ τ)
    (events : Array Event) : o.checked.after ⟨s, events⟩ = o.edit.after ⟨s, events⟩ := by
  cases o with
  | call c =>
    cases c with
    | add count =>
      have hchecked : (Operation.call (.add count)).checked.after ⟨s, events⟩
          = Edit.after (Checked.add count) ⟨s, events⟩ := Edit.after_discard _ _
      have hedit : (Operation.call (.add count)).edit.after ⟨s, events⟩
          = Edit.after (add count) ⟨s, events⟩ := Edit.after_discard _ _
      rw [hchecked, hedit, Edit.after, Checked.add_eq h, Edit.after]
    | set slot value =>
      show Edit.after (Checked.set slot value) ⟨s, events⟩ = Edit.after (set slot value) ⟨s, events⟩
      rw [Edit.after, Checked.set_eq h, Edit.after]
    | flush =>
      show Edit.after Checked.flush ⟨s, events⟩ = Edit.after flush ⟨s, events⟩
      rw [Edit.after, Checked.flush_eq h, Edit.after]
  | amend slot f => rfl

/-- With every step checked, runs are the same. -/
theorem checkedRun_eq {s : Store ρ τ} (h : s.WellFormed) (ops : List (Operation ρ τ)) :
    s.checkedRun ops = (s.usage ops).current :=
  foldl_view (fun t o => o.checked.after t) Usage.current
    (fun u o hu => hu.after_checked o u.current.events) ops (u := { current := ⟨s, #[]⟩ }) h

/-- Nothing in a store goes wrong unless a caller asks for it. -/
structure Safe (t : Tracked (Store ρ τ)) : Prop where
  /-- The parts of the store fit each other. -/
  wellFormed : t.value.WellFormed
  /-- An offset inside a block is the same number in sixteen bits. -/
  offset : ∀ slot, (UInt16.ofNat (slot % t.value.config.blockSize)).toNat
    = slot % t.value.config.blockSize
  add : ∀ count, Checked.add count t = Store.add count t ∧
    ∀ f t', Store.add count t = .error f t' → t.value.AddFault count f
  set : ∀ slot value, Checked.set slot value t = Store.set slot value t ∧
    ∀ f t', Store.set slot value t = .error f t' → t.value.SetFault slot value f
  flush : Checked.flush t = Store.flush t ∧ ∃ t', Store.flush t = .ok () t'
  snapshot : ∃ buffer, t.value.snapshot = .ok buffer
  isLive : ∀ slot, Checked.isLive t.value slot = .ok (t.value.isLive slot)
  live : Checked.live t.value = .ok t.value.live
  liveCount : Checked.liveCount t.value = .ok t.value.liveCount
  pendingChanges : Checked.pendingChanges t.value = .ok t.value.pendingChanges

theorem WellFormed.safe {s : Store ρ τ} (h : s.WellFormed) (events : Array Event) :
    Safe ⟨s, events⟩ where
  wellFormed := h
  offset := toNat_offset h.valid
  add count := ⟨Checked.add_eq h count events, fun _ _ heq => h.addFault heq⟩
  set slot value := ⟨Checked.set_eq h slot value events, fun _ _ heq => h.setFault heq⟩
  flush := ⟨Checked.flush_eq h events, _, h.flush_eq events⟩
  snapshot := ⟨_, h.snapshot_eq⟩
  isLive := Checked.isLive_eq h
  live := Checked.live_eq h
  liveCount := Checked.liveCount_eq h
  pendingChanges := Checked.pendingChanges_eq h

/-- At every point of every run with every step checked, those that fail included, the store is
well-formed, and no check fails. -/
theorem representation_safe {config : StoreConfig} (hv : config.Valid) (ops : List (Operation ρ τ)) :
    ∃ s₀ : Store ρ τ, Store.new config = .ok s₀ ∧ s₀.checkedRun ops = (s₀.usage ops).current ∧
      Safe (s₀.checkedRun ops) := by
  have hempty := wellFormed_empty (ρ := ρ) (τ := τ) hv
  have hrun := checkedRun_eq hempty ops
  obtain ⟨h, -⟩ := usage_induction (ρ := ρ) (τ := τ) (P := fun _ _ => True) hv trivial
    (fun _ _ _ => trivial) ops
  refine ⟨{ config }, new_eq_ok_iff.2 ⟨hv, rfl⟩, hrun, ?_⟩
  rw [hrun]
  exact h.safe _

/-- The largest blocks, and operations of which some are refused. -/
theorem representation_safe_largest_blocks :
    ({ blockSize := 65536, maxModified := 100 } : StoreConfig).Valid ∧
      ∃ s₀ : Store NodeRecord Unit, Store.new { blockSize := 65536, maxModified := 100 } = .ok s₀ ∧
        s₀.checkedRun [.call (.add 0), .call (.add 70000), .call (.set 65535 none),
            .call (.set 65535 none), .call (.set 70000 none), .call .flush, .call (.add 1)]
          = (s₀.usage [.call (.add 0), .call (.add 70000), .call (.set 65535 none),
            .call (.set 65535 none), .call (.set 70000 none), .call .flush, .call (.add 1)]).current ∧
        Safe (s₀.checkedRun [.call (.add 0), .call (.add 70000), .call (.set 65535 none),
          .call (.set 65535 none), .call (.set 70000 none), .call .flush, .call (.add 1)]) :=
  ⟨by decide, representation_safe (by decide) _⟩

end Store

end LiveGraph
