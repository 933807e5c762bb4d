import LiveGraph.Proofs.Bytes
import LiveGraph.Store.Basic

/-!
# Change tracking

The marks of a block, bits in a row of words, and the list of its marked offsets say the same, and a
block is dirty exactly if its list is not empty. `Store.mark` adds one slot to the changed ones;
`BlockChanges.clear` forgets those of a block.
-/

namespace LiveGraph

/-! ## One block -/

namespace BlockChanges

/-! ### Marks -/

theorem toBitVec_bit (o : UInt16) : (bit o).toBitVec = BitVec.twoPow 64 (o.toNat % 64) := by
  rw [bit, UInt64.toBitVec_shiftLeft]
  simp [BitVec.twoPow_eq]

/-- An offset is marked if its bit is set in its word. -/
theorem isMarked_eq (c : BlockChanges) (o : UInt16) :
    c.isMarked o = (c.marks.getD (word o) 0).toBitVec.getLsbD (o.toNat % 64) := by
  have hlt : o.toNat % 64 < 64 := Nat.mod_lt _ (by decide)
  generalize hw : c.marks.getD (word o) 0 = w
  rw [isMarked, hw, Bool.eq_iff_iff, bne_iff_ne, ne_eq, ← UInt64.toBitVec_inj,
    UInt64.toBitVec_and, toBitVec_bit, BitVec.and_twoPow]
  cases hbit : w.toBitVec.getLsbD (o.toNat % 64) with
  | false => simp
  | true =>
    have hne : BitVec.twoPow 64 (o.toNat % 64) ≠ 0#64 := by
      intro hzero
      have hself := BitVec.getLsbD_twoPow (w := 64) (o.toNat % 64) (o.toNat % 64)
      rw [hzero] at hself
      simp [hlt] at hself
    simpa using hne

/-- In one word, another offset has another bit. -/
theorem mod_ne_of_word_eq {o p : UInt16} (hword : word o = word p) (hne : o ≠ p) :
    o.toNat % 64 ≠ p.toNat % 64 := by
  intro hmod
  apply hne
  rw [← UInt16.toNat_inj, ← Nat.div_add_mod o.toNat 64, ← Nat.div_add_mod p.toNat 64, hmod]
  have hdiv : o.toNat / 64 = p.toNat / 64 := hword
  rw [hdiv]

/-- Setting a bit marks one offset. -/
theorem isMarked_set {c : BlockChanges} {o : UInt16} (ho : word o < c.marks.size)
    (modified : Array UInt16) (p : UInt16) :
    (⟨c.marks.modify (word o) (· ||| bit o), modified⟩ : BlockChanges).isMarked p = true
      ↔ p = o ∨ c.isMarked p = true := by
  have hlt : o.toNat % 64 < 64 := Nat.mod_lt _ (by decide)
  rw [isMarked_eq, isMarked_eq, getD_modify]
  by_cases hword : word o = word p
  · rw [if_pos ⟨hword, hword ▸ ho⟩, UInt64.toBitVec_or, BitVec.getLsbD_or, toBitVec_bit,
      BitVec.getLsbD_twoPow]
    by_cases hop : p = o
    · subst hop
      simp [hlt]
    · have hne := mod_ne_of_word_eq hword (Ne.symm hop)
      simp [hop, hne]
  · have hop : p ≠ o := fun heq => hword (by rw [heq])
    rw [if_neg fun h => hword h.1]
    simp [hop]

/-- Unsetting a bit unmarks one offset. -/
theorem isMarked_unset {c : BlockChanges} {o : UInt16} (ho : word o < c.marks.size)
    (modified : Array UInt16) (p : UInt16) :
    (⟨c.marks.modify (word o) (· &&& ~~~bit o), modified⟩ : BlockChanges).isMarked p = true
      ↔ p ≠ o ∧ c.isMarked p = true := by
  have hlt : p.toNat % 64 < 64 := Nat.mod_lt _ (by decide)
  rw [isMarked_eq, isMarked_eq, getD_modify]
  by_cases hword : word o = word p
  · rw [if_pos ⟨hword, hword ▸ ho⟩, UInt64.toBitVec_and, BitVec.getLsbD_and, UInt64.toBitVec_not,
      BitVec.getLsbD_not, toBitVec_bit, BitVec.getLsbD_twoPow]
    by_cases hop : p = o
    · subst hop
      simp [hlt]
    · have hne := mod_ne_of_word_eq hword (Ne.symm hop)
      simp [hop, hne, hlt]
  · have hop : p ≠ o := fun heq => hword (by rw [heq])
    rw [if_neg fun h => hword h.1]
    simp [hop]

/-! ### The list of marked offsets -/

/-- The list of a block of `n` slots holds the marked offsets, each once. -/
structure Sound (c : BlockChanges) (n : Nat) : Prop where
  size_marks : c.marks.size = wordCount n
  nodup : c.modified.toList.Nodup
  lt : ∀ o ∈ c.modified, o.toNat < n
  mem_modified : ∀ o, o ∈ c.modified ↔ c.isMarked o = true

/-- There is a word for every offset. -/
theorem Sound.word_lt {c : BlockChanges} {n : Nat} (h : c.Sound n) {o : UInt16} (ho : o.toNat < n) :
    word o < c.marks.size := by
  rw [h.size_marks, word, wordCount]
  omega

theorem sound_none (n : Nat) : (none n).Sound n := by
  refine ⟨by simp [none], by simp [none], by simp [none], fun o => ?_⟩
  have hmark : (none n).isMarked o = false := by
    rw [isMarked_eq, Array.getD_eq_getD_getElem?, none, Array.getElem?_replicate]
    split <;> exact BitVec.getLsbD_zero
  rw [hmark]
  simp [none]

/-- A marked offset joins the list, if it is not there yet. -/
theorem mem_modified_mark {c : BlockChanges} {n : Nat} (h : c.Sound n) (o p : UInt16) :
    p ∈ (c.mark o).modified ↔ p = o ∨ p ∈ c.modified := by
  rw [mark]
  split
  · next hmark =>
    have ho := (h.mem_modified o).2 hmark
    constructor
    · exact Or.inr
    · rintro (rfl | hp)
      · exact ho
      · exact hp
  · rw [Array.mem_push]
    exact Or.comm

/-- A mark keeps the words and the list of a block in agreement. -/
theorem Sound.mark {c : BlockChanges} {n : Nat} (h : c.Sound n) {o : UInt16} (ho : o.toNat < n) :
    (c.mark o).Sound n := by
  have hword := h.word_lt ho
  rw [BlockChanges.mark]
  split
  · exact h
  · next hmark =>
    have hnew : o ∉ c.modified := fun hmem => hmark ((h.mem_modified o).1 hmem)
    refine ⟨by rw [Array.size_modify, h.size_marks], ?_, fun p hp => ?_, fun p => ?_⟩
    · rw [Array.toList_push, List.nodup_append]
      refine ⟨h.nodup, by simp, ?_⟩
      intro a ha b hb
      rw [List.mem_singleton] at hb
      subst hb
      rintro rfl
      exact hnew (Array.mem_def.2 ha)
    · rcases Array.mem_push.1 hp with hp | rfl
      · exact h.lt p hp
      · exact ho
    · rw [isMarked_set hword, Array.mem_push, h.mem_modified]
      exact Or.comm

/-- An offset that was marked can be marked again without effect. -/
theorem Sound.mark_mark {c : BlockChanges} {n : Nat} (h : c.Sound n) {o : UInt16}
    (ho : o.toNat < n) : (c.mark o).isMarked o = true ∧ (c.mark o).mark o = c.mark o := by
  have hmarked : (c.mark o).isMarked o = true :=
    ((h.mark ho).mem_modified o).1 ((mem_modified_mark h o o).2 (.inl rfl))
  exact ⟨hmarked, if_pos hmarked⟩

/-- The words with the marks of some offsets taken away. -/
def unmarked (marks : Array UInt64) (os : List UInt16) : Array UInt64 :=
  os.foldl (fun marks o => marks.modify (word o) (· &&& ~~~bit o)) marks

theorem size_unmarked (marks : Array UInt64) (os : List UInt16) :
    (unmarked marks os).size = marks.size := by
  induction os generalizing marks with
  | nil => rfl
  | cons o os ih =>
    have hcons : unmarked marks (o :: os) = unmarked (marks.modify (word o) (· &&& ~~~bit o)) os :=
      rfl
    rw [hcons, ih, Array.size_modify]

/-- Unmarking a list of offsets leaves the other marks. -/
theorem isMarked_unmarked {c : BlockChanges} {os : List UInt16} (modified : Array UInt16)
    (hos : ∀ o ∈ os, word o < c.marks.size) (p : UInt16) :
    (⟨unmarked c.marks os, modified⟩ : BlockChanges).isMarked p = true
      ↔ p ∉ os ∧ c.isMarked p = true := by
  induction os generalizing c with
  | nil =>
    have hsame : (⟨c.marks, modified⟩ : BlockChanges).isMarked p = c.isMarked p := rfl
    simp [unmarked, hsame]
  | cons o os ih =>
    have hword := hos o List.mem_cons_self
    have hrest : ∀ q ∈ os, word q < (c.marks.modify (word o) (· &&& ~~~bit o)).size := by
      intro q hq
      rw [Array.size_modify]
      exact hos q (List.mem_cons_of_mem o hq)
    have hstep := ih (c := ⟨c.marks.modify (word o) (· &&& ~~~bit o), modified⟩) hrest
    rw [isMarked_unset hword] at hstep
    rw [List.mem_cons, not_or, and_assoc, and_left_comm]
    exact hstep

theorem clear_eq (c : BlockChanges) : c.clear = ⟨unmarked c.marks c.modified.toList, #[]⟩ := by
  rw [clear, ← Array.foldl_toList]
  rfl

/-- So does clearing the block. -/
theorem Sound.clear {c : BlockChanges} {n : Nat} (h : c.Sound n) : c.clear.Sound n := by
  have hwords : ∀ o ∈ c.modified.toList, word o < c.marks.size :=
    fun o ho => h.word_lt (h.lt o (Array.mem_def.2 ho))
  rw [clear_eq]
  refine ⟨by rw [size_unmarked, h.size_marks], List.nodup_nil, by simp, fun o => ?_⟩
  -- every mark stands for an offset of the list, so unmarking the list leaves none
  rw [isMarked_unmarked #[] hwords, ← h.mem_modified, Array.mem_def]
  simp

end BlockChanges

/-! ## All blocks -/

namespace Store

variable {ρ τ : Type}

/-- The blocks of an array are those whose first slot is in it. -/
theorem lt_blockCount {config : StoreConfig} (h : config.Valid) {capacity b : Nat} :
    b < blockCount config capacity ↔ b * config.blockSize < capacity := by
  have hpos : 0 < config.blockSize := Nat.lt_of_lt_of_le h.1 h.2.1
  rw [blockCount, Nat.lt_iff_add_one_le, Nat.le_div_iff_mul_le hpos, Nat.add_mul, Nat.one_mul]
  omega

/-- Every block has its changes, which are slots that were handed out, and the dirty blocks are
those with changes, each once. -/
structure Tracking (config : StoreConfig) (len capacity : Nat) (changes : Array BlockChanges)
    (dirty : Array Nat) : Prop where
  size_changes : changes.size = blockCount config capacity
  sound : ∀ (b : Nat) (c : BlockChanges), changes[b]? = some c → c.Sound config.blockSize
  lt_len : ∀ (b : Nat) (c : BlockChanges), changes[b]? = some c →
    ∀ o ∈ c.modified, b * config.blockSize + o.toNat < len
  nodup : dirty.toList.Nodup
  mem_dirty : ∀ b, b ∈ dirty ↔ ∃ c : BlockChanges, changes[b]? = some c ∧ c.modified ≠ #[]

/-- The slot changed since the last flush. -/
def IsDirty (s : Store ρ τ) (slot : Nat) : Prop :=
  UInt16.ofNat (slot % s.config.blockSize) ∈ s.modified (slot / s.config.blockSize)

theorem modified_of_getElem? {s : Store ρ τ} {b : Nat} {c : BlockChanges}
    (h : s.changes[b]? = some c) : s.modified b = c.modified := by
  rw [modified, h]

/-- Offsets inside a block are numbers of sixteen bits. -/
theorem toNat_offset {config : StoreConfig} (h : config.Valid) (slot : Nat) :
    (UInt16.ofNat (slot % config.blockSize)).toNat = slot % config.blockSize := by
  have hpos : 0 < config.blockSize := Nat.lt_of_lt_of_le h.1 h.2.1
  have hlt := Nat.mod_lt slot hpos
  have hmax : config.blockSize ≤ 65536 := h.2.2
  exact UInt16.toNat_ofNat_of_lt (Nat.lt_of_lt_of_le hlt hmax)

/-- A store without slots has no changes. -/
theorem tracking_empty {config : StoreConfig} (h : config.Valid) :
    Tracking config 0 0 #[] #[] := by
  have hcount : blockCount config 0 = 0 := by
    apply Nat.eq_zero_of_not_pos
    intro hlt
    have := (lt_blockCount h).1 hlt
    omega
  refine ⟨by simp [hcount], ?_, ?_, by simp, ?_⟩ <;> simp

namespace Tracking

variable {config : StoreConfig} {len capacity : Nat} {changes : Array BlockChanges}
  {dirty : Array Nat}

/-- The block of a slot has its changes. -/
theorem exists_changes (h : Tracking config len capacity changes dirty) (hv : config.Valid)
    {slot : Nat} (hslot : slot < capacity) :
    ∃ c, changes[slot / config.blockSize]? = some c := by
  have hb : slot / config.blockSize < changes.size := by
    rw [h.size_changes, lt_blockCount hv]
    exact Nat.lt_of_le_of_lt (Nat.div_mul_le_self _ _) hslot
  exact ⟨_, Array.getElem?_eq_getElem hb⟩

/-- New slots have no changes. -/
theorem grow (h : Tracking config len capacity changes dirty) (hv : config.Valid)
    {len' capacity' : Nat} (hlen : len ≤ len') (hcap : capacity ≤ capacity') :
    Tracking config len' capacity'
      (padded changes (blockCount config capacity') (.none config.blockSize)) dirty := by
  have hcount : blockCount config capacity ≤ blockCount config capacity' := by
    apply Nat.le_of_not_lt
    intro hlt
    have hlo := (lt_blockCount hv).1 hlt
    exact absurd ((lt_blockCount hv).2 (Nat.lt_of_lt_of_le hlo hcap)) (Nat.lt_irrefl _)
  -- a block of the padded array is an old one or has no changes
  have hget : ∀ (b : Nat) (c : BlockChanges),
      (padded changes (blockCount config capacity') (.none config.blockSize))[b]? = some c →
        changes[b]? = some c ∨ c = .none config.blockSize := by
    intro b c hc
    rw [padded, Array.getElem?_append] at hc
    split at hc
    · exact .inl hc
    · rw [Array.getElem?_replicate] at hc
      split at hc
      · exact .inr (Option.some.inj hc).symm
      · cases hc
  have hold : ∀ (b : Nat) (c : BlockChanges), changes[b]? = some c →
      (padded changes (blockCount config capacity') (.none config.blockSize))[b]? = some c := by
    intro b c hc
    obtain ⟨hlt, -⟩ := Array.getElem?_eq_some_iff.1 hc
    rw [padded, Array.getElem?_append, if_pos hlt, hc]
  refine ⟨?_, ?_, ?_, h.nodup, fun b => ?_⟩
  · rw [padded, Array.size_append, Array.size_replicate, h.size_changes]
    omega
  · intro b c hc
    rcases hget b c hc with hc | rfl
    · exact h.sound b c hc
    · exact BlockChanges.sound_none _
  · intro b c hc o ho
    rcases hget b c hc with hc | rfl
    · exact Nat.lt_of_lt_of_le (h.lt_len b c hc o ho) hlen
    · simp [BlockChanges.none] at ho
  · rw [h.mem_dirty]
    constructor
    · rintro ⟨c, hc, hne⟩
      exact ⟨c, hold b c hc, hne⟩
    · rintro ⟨c, hc, hne⟩
      rcases hget b c hc with hc | rfl
      · exact ⟨c, hc, hne⟩
      · exact absurd rfl hne

/-- The changes of the blocks after a slot was marked. -/
private theorem getElem?_mark {s : Store ρ τ} {slot : Nat} {c : BlockChanges}
    (hc : s.changes[slot / s.config.blockSize]? = some c) (b : Nat) :
    (s.mark slot).changes[b]?
      = if slot / s.config.blockSize = b
        then some (c.mark (UInt16.ofNat (slot % s.config.blockSize)))
        else s.changes[b]? := by
  rw [Store.mark, Array.getElem?_modify]
  by_cases hb : slot / s.config.blockSize = b
  · subst hb
    rw [if_pos rfl, if_pos rfl, hc, Option.map_some]
  · rw [if_neg hb, if_neg hb]

/-- A block becomes dirty with its first change. -/
private theorem dirtyBlocks_mark {s : Store ρ τ} {slot : Nat} {c : BlockChanges}
    (hc : s.changes[slot / s.config.blockSize]? = some c) {n : Nat} (hsound : c.Sound n) :
    (s.mark slot).dirtyBlocks
      = if c.modified = #[] then s.dirtyBlocks.push (slot / s.config.blockSize)
        else s.dirtyBlocks := by
  rw [Store.mark, dirties, hc]
  by_cases hempty : c.modified = #[]
  · have hmark : c.isMarked (UInt16.ofNat (slot % s.config.blockSize)) = false := by
      rw [Bool.eq_false_iff]
      intro hm
      have := (hsound.mem_modified _).2 hm
      rw [hempty] at this
      simp at this
    simp [hempty, hmark]
  · simp [hempty]

/-- A slot that changed already can change again without a further note. -/
theorem mark_mark {s : Store ρ τ}
    (h : Tracking s.config s.len s.capacity s.changes s.dirtyBlocks) (hv : s.config.Valid)
    {slot : Nat} (hslot : slot < s.capacity) : (s.mark slot).mark slot = s.mark slot := by
  have hpos : 0 < s.config.blockSize := Nat.lt_of_lt_of_le hv.1 hv.2.1
  obtain ⟨c, hc⟩ := h.exists_changes hv hslot
  have hget := getElem?_mark hc
  generalize ho : UInt16.ofNat (slot % s.config.blockSize) = o at hget
  have hlt : o.toNat < s.config.blockSize := by
    rw [← ho, toNat_offset hv]
    exact Nat.mod_lt slot hpos
  obtain ⟨hmarked, hagain⟩ := (h.sound _ c hc).mark_mark hlt
  have hchanges : (s.mark slot).changes.modify (slot / s.config.blockSize) (·.mark o)
      = (s.mark slot).changes := by
    apply Array.ext_getElem?
    intro b
    rw [Array.getElem?_modify]
    by_cases hb : slot / s.config.blockSize = b
    · rw [if_pos hb, hget b, if_pos hb, Option.map_some, hagain]
    · rw [if_neg hb]
  -- a slot that is marked already does not queue its block
  have hdirties : (s.mark slot).dirties (slot / s.config.blockSize) o = false := by
    rw [dirties, hget, if_pos rfl]
    simp [hmarked]
  unfold Store.mark at hchanges hdirties ⊢
  dsimp only at hchanges hdirties ⊢
  rw [ho] at hchanges hdirties ⊢
  rw [hchanges, hdirties]
  rfl

/-- The changes of a block after a slot was marked: the slot joins those of its block, unless it is
there already. -/
theorem modified_mark {s : Store ρ τ}
    (h : Tracking s.config s.len s.capacity s.changes s.dirtyBlocks) (hv : s.config.Valid)
    {slot : Nat} (hslot : slot < s.capacity) (b : Nat) :
    (s.mark slot).modified b
      = if slot / s.config.blockSize = b ∧
          UInt16.ofNat (slot % s.config.blockSize) ∉ s.modified (slot / s.config.blockSize)
        then (s.modified b).push (UInt16.ofNat (slot % s.config.blockSize)) else s.modified b := by
  obtain ⟨c, hc⟩ := h.exists_changes hv hslot
  have hget := getElem?_mark hc b
  have hmem := (h.sound _ c hc).mem_modified (UInt16.ofNat (slot % s.config.blockSize))
  by_cases hb : slot / s.config.blockSize = b
  · subst hb
    rw [if_pos rfl] at hget
    rw [modified_of_getElem? hget, modified_of_getElem? hc, BlockChanges.mark]
    split
    · next hmark => rw [if_neg fun hnew => hnew.2 (hmem.2 hmark)]
    · next hmark => rw [if_pos ⟨rfl, fun hin => hmark (hmem.1 hin)⟩]
  · rw [if_neg hb] at hget
    rw [if_neg fun hin => hb hin.1, modified, hget, modified]

/-- The dirty blocks after a slot was marked. -/
theorem dirtyBlocks_mark_eq {s : Store ρ τ}
    (h : Tracking s.config s.len s.capacity s.changes s.dirtyBlocks) (hv : s.config.Valid)
    {slot : Nat} (hslot : slot < s.capacity) :
    (s.mark slot).dirtyBlocks
      = if s.modified (slot / s.config.blockSize) = #[]
        then s.dirtyBlocks.push (slot / s.config.blockSize) else s.dirtyBlocks := by
  obtain ⟨c, hc⟩ := h.exists_changes hv hslot
  rw [modified_of_getElem? hc]
  exact dirtyBlocks_mark hc (h.sound _ c hc)

/-- Marking a slot that was handed out keeps the tracking. -/
theorem mark {s : Store ρ τ} (h : Tracking s.config s.len s.capacity s.changes s.dirtyBlocks)
    (hv : s.config.Valid) {slot : Nat} (hslot : slot < s.len) (hlen : s.len ≤ s.capacity) :
    Tracking s.config s.len s.capacity (s.mark slot).changes (s.mark slot).dirtyBlocks := by
  have hpos : 0 < s.config.blockSize := Nat.lt_of_lt_of_le hv.1 hv.2.1
  obtain ⟨c, hc⟩ := h.exists_changes hv (Nat.lt_of_lt_of_le hslot hlen)
  have hsound := h.sound _ c hc
  have hoff := toNat_offset hv slot
  have hget := getElem?_mark hc
  have hdirty := dirtyBlocks_mark hc hsound
  have hmem := BlockChanges.mem_modified_mark hsound (UInt16.ofNat (slot % s.config.blockSize))
  have hne : (c.mark (UInt16.ofNat (slot % s.config.blockSize))).modified ≠ #[] := by
    intro heq
    have := (hmem _).2 (.inl rfl)
    rw [heq] at this
    simp at this
  -- a block is listed with its first change, so it is not listed before
  have hclean : c.modified = #[] → slot / s.config.blockSize ∉ s.dirtyBlocks := by
    intro hempty hin
    obtain ⟨c', hc', hne'⟩ := (h.mem_dirty _).1 hin
    rw [hc] at hc'
    cases hc'
    exact hne' hempty
  refine ⟨?_, ?_, ?_, ?_, fun b => ?_⟩
  · rw [Store.mark, Array.size_modify, h.size_changes]
  · intro b c' hc'
    rw [hget] at hc'
    split at hc'
    · cases hc'
      exact hsound.mark (by rw [hoff]; exact Nat.mod_lt _ hpos)
    · exact h.sound b c' hc'
  · intro b c' hc' o ho
    rw [hget] at hc'
    split at hc'
    · next hb =>
      cases hc'
      subst hb
      rcases (hmem o).1 ho with rfl | ho
      · -- the marked slot itself, put together from block and offset
        rw [hoff, Nat.mul_comm, Nat.div_add_mod]
        exact hslot
      · exact h.lt_len _ c hc o ho
    · exact h.lt_len b c' hc' o ho
  · rw [hdirty]
    split
    · next hempty =>
      rw [Array.toList_push, List.nodup_append]
      refine ⟨h.nodup, by simp, ?_⟩
      intro a ha b hb
      rw [List.mem_singleton] at hb
      subst hb
      rintro rfl
      exact hclean hempty (Array.mem_def.2 ha)
    · exact h.nodup
  · rw [hdirty, hget]
    by_cases hb : slot / s.config.blockSize = b
    · subst hb
      rw [if_pos rfl]
      refine ⟨fun _ => ⟨_, rfl, hne⟩, fun _ => ?_⟩
      split
      · exact Array.mem_push_self
      · next hfull => exact (h.mem_dirty _).2 ⟨c, hc, hfull⟩
    · rw [if_neg hb, ← h.mem_dirty]
      split
      · rw [Array.mem_push]
        exact ⟨fun hin => hin.resolve_right (Ne.symm hb), .inl⟩
      · exact Iff.rfl

/-- The changed slots after a slot was marked. -/
theorem isDirty_mark {s : Store ρ τ}
    (h : Tracking s.config s.len s.capacity s.changes s.dirtyBlocks) (hv : s.config.Valid)
    {slot : Nat} (hslot : slot < s.capacity) (x : Nat) :
    (s.mark slot).IsDirty x ↔ x = slot ∨ s.IsDirty x := by
  obtain ⟨c, hc⟩ := h.exists_changes hv hslot
  have hget := getElem?_mark hc (x / s.config.blockSize)
  have hconfig : (s.mark slot).config = s.config := rfl
  rw [IsDirty, IsDirty, hconfig]
  -- other blocks keep their lists, and inside a block an offset belongs to one slot
  by_cases hb : slot / s.config.blockSize = x / s.config.blockSize
  · rw [if_pos hb] at hget
    rw [modified_of_getElem? hget, modified_of_getElem? (hb ▸ hc),
      BlockChanges.mem_modified_mark (h.sound _ c hc)]
    have hoff : UInt16.ofNat (x % s.config.blockSize) = UInt16.ofNat (slot % s.config.blockSize)
        ↔ x = slot := by
      rw [← UInt16.toNat_inj, toNat_offset hv, toNat_offset hv]
      constructor
      · intro hmod
        rw [← Nat.div_add_mod x s.config.blockSize, ← Nat.div_add_mod slot s.config.blockSize, hb,
          hmod]
      · rintro rfl
        rfl
    rw [hoff]
  · rw [if_neg hb] at hget
    have hmod : (s.mark slot).modified (x / s.config.blockSize)
        = s.modified (x / s.config.blockSize) := by
      rw [modified, hget, modified]
    rw [hmod]
    constructor
    · exact .inr
    · rintro (rfl | hx)
      · exact absurd rfl hb
      · exact hx

end Tracking

end Store

end LiveGraph
