import LiveGraph.Proofs.Content
import LiveGraph.Proofs.Replica

/-!
# Events as patches

A replica answers an event by one look at its kind, its width and its last slot. An event that it
accepts gives every slot a new content or leaves it alone: after a new baseline a slot is what the
snapshot has there, or zeros; after an update it is what the snapshot has there if it was updated, and
what it was if not. This holds at any point of any history of events, as long as the event is
`Event.Regular`.
-/

namespace LiveGraph

namespace Event

/-- The snapshot in the event was made in one of the ways there are. -/
def Genuine (e : Event) : Prop := ∀ b, e.buffer? = some b → ∃ flat, b.Holds flat

/-- A new baseline fits into an array, a range does not run backwards, and the slot behind an updated
one has a number. -/
def Regular (recordSize : Nat) : Event → Prop
  | .replaced _ capacity _ => capacity * recordSize < arrayLimit
  | .range _ start stop _ => start ≤ stop
  | .slot _ s _ => s + 1 < sizeLimit
  | .task _ => True

theorem Genuine.sound {e : Event} (h : e.Genuine) {b : Snapshot} (hb : e.buffer? = some b) :
    b.Sound := by
  obtain ⟨flat, hflat⟩ := h b hb
  exact hflat.spells.sound

/-- What is for an array is a new baseline or an update, if its slots have numbers. -/
theorem Regular.cases {e : Event} {k : Kind} {recordSize : Nat} {b : Snapshot}
    (h : e.Regular recordSize) (hkind : e.kind? = some k) (hbuffer : e.buffer? = some b) :
    (∃ capacity, e = .replaced k capacity b) ∨ ∃ start stop, e.Updates k start stop b := by
  cases e with
  | task name => cases hkind
  | replaced l capacity b' =>
    cases hkind
    cases hbuffer
    exact .inl ⟨capacity, rfl⟩
  | range l start stop b' =>
    cases hkind
    cases hbuffer
    exact .inr ⟨start, stop, .range _ _ _ _⟩
  | slot l s b' =>
    cases hkind
    cases hbuffer
    exact .inr ⟨s, s + 1, .slot _ _ h⟩

/-- A regular update does not run backwards. -/
theorem Updates.le {e : Event} {k : Kind} {start stop recordSize : Nat} {b : Snapshot}
    (h : e.Updates k start stop b) (hregular : e.Regular recordSize) : start ≤ stop := by
  cases h with
  | range => exact hregular
  | slot => exact Nat.le_succ _

end Event

namespace Replica

/-! ## Copies without a rest -/

/-- The copy is a row of slots, and its bytes can be counted. -/
structure Whole (r : Replica) : Prop where
  rest : r.recordSize ∣ r.bytes.size
  bytes_lt : r.bytes.size < sizeLimit

theorem capacity_eq_ok {r : Replica} {n : Nat} (h : r.capacity = .ok n) :
    0 < r.recordSize ∧ n = r.bytes.size / r.recordSize := by
  rw [capacity] at h
  split at h
  · cases h
  · next hpos =>
    cases h
    exact ⟨Nat.pos_of_ne_zero hpos, rfl⟩

/-- Slots that were copied from a sound snapshot do not run backwards, and are patched. -/
theorem eq_patched_of_copied {r : Replica} {b : Snapshot} {n start stop : Nat} {bytes : Bytes}
    (hb : b.Sound) (hrec : b.recordSize = r.recordSize) (hn : r.capacity = .ok n)
    (hin : stop ≤ n ∧ stop ≤ b.capacity) (h : r.copied start stop b = .ok bytes) :
    start ≤ stop ∧ { r with bytes } = r.patched b start stop := by
  obtain ⟨hpos, rfl⟩ := capacity_eq_ok hn
  by_cases hle : start ≤ stop
  · rw [copied_eq hb hrec (Nat.div_mul_le_self _ _) hle hin] at h
    cases h
    exact ⟨hle, rfl⟩
  · obtain ⟨f, hf⟩ := copied_backwards hpos (Nat.lt_of_not_le hle) b
    rw [hf] at h
    cases h

/-- What is read from a sound snapshot is its window. -/
theorem eq_window_of_toBytes {b : Snapshot} {bytes : Bytes} (hb : b.Sound)
    (h : b.toBytes = .ok bytes) : bytes = b.window 0 b.capacity := by
  rw [hb.toBytes_eq] at h
  cases h
  rfl

/-- A copy without a rest has none after any genuine event. -/
theorem Whole.follow {r : Replica} {e : Event} (h : r.Whole) (he : e.Genuine) :
    (r.follow e).Whole := by
  have hout := outcome_apply r e
  rw [Replica.follow]
  generalize apply e r = answer at hout
  cases hout with
  -- the bytes are there already when the copy is found to be too large
  | oversized hrec hread =>
    have hb := he.sound rfl
    cases eq_window_of_toBytes hb hread
    refine ⟨?_, ?_⟩
    · show r.recordSize ∣ (Snapshot.window _ 0 _).size
      rw [Snapshot.size_window, hrec]
      exact Nat.dvd_mul_left _ _
    · show (Snapshot.window _ 0 _).size < sizeLimit
      rw [Snapshot.size_window, Nat.sub_zero]
      exact hb.bytes_lt
  | rebased _ _ hsize =>
    refine ⟨?_, ?_⟩
    · show r.recordSize ∣ (Bytes.resize _ _).size
      rw [Bytes.size_resize]
      exact Nat.dvd_mul_left _ _
    · show (Bytes.resize _ _).size < sizeLimit
      rw [Bytes.size_resize]
      exact Nat.lt_trans hsize (by decide)
  | patched hupdate hrec hn hin hcopied =>
    have hb := he.sound hupdate.buffer?_eq
    obtain ⟨-, hpatched⟩ := eq_patched_of_copied hb hrec hn hin hcopied
    show Whole { r with bytes := _ }
    rw [hpatched]
    exact ⟨by rw [recordSize_patched, size_bytes_patched]; exact h.rest,
      by rw [size_bytes_patched]; exact h.bytes_lt⟩
  | _ => exact h

/-- Whatever happened before, a replica has no rest. -/
theorem Whole.foldl_follow {r : Replica} {history : List Event} (h : r.Whole)
    (hhistory : ∀ e ∈ history, e.Genuine) : (history.foldl Replica.follow r).Whole := by
  induction history generalizing r with
  | nil => exact h
  | cons e history ih =>
    exact ih (h.follow (hhistory e List.mem_cons_self))
      fun x hx => hhistory x (List.mem_cons_of_mem e hx)

/-! ## Slots -/

/-- One slot of the copy. -/
theorem slotBytes_eq {r : Replica} {n slot : Nat} (hbytes : r.bytes.size = n * r.recordSize)
    (hlt : r.bytes.size < sizeLimit) (hslot : slot < n) :
    r.slotBytes slot (slot + 1)
      = .ok (r.bytes.extract (slot * r.recordSize) ((slot + 1) * r.recordSize)) := by
  rw [hbytes] at hlt
  have hstart : slot * r.recordSize ≤ (slot + 1) * r.recordSize :=
    Nat.mul_le_mul_right _ (Nat.le_succ slot)
  have hstop : (slot + 1) * r.recordSize ≤ r.bytes.size := by
    rw [hbytes]
    exact Nat.mul_le_mul_right _ hslot
  rw [slotBytes, extent, Snapshot.product_eq_ok (Nat.le_of_lt hslot) hlt,
    Snapshot.product_eq_ok (Nat.succ_le_of_lt hslot) hlt]
  show r.bytes.slice _ _ = _
  rw [Bytes.slice_eq_ok hstart hstop]

/-- After a new baseline, a slot is what the snapshot has there, or zeros. -/
theorem slotBytes_rebased {r : Replica} {b : Snapshot} {capacity slot : Nat} (hb : b.Sound)
    (hrec : b.recordSize = r.recordSize) (hsize : capacity * r.recordSize < arrayLimit)
    (hslot : slot < capacity) :
    slotBytes { r with bytes := (b.window 0 b.capacity).resize (capacity * r.recordSize) }
        slot (slot + 1)
      = if slot < b.capacity then b.slotBytes slot else .ok (Array.replicate r.recordSize 0) := by
  have hbytes : ((b.window 0 b.capacity).resize (capacity * r.recordSize)).size
      = capacity * r.recordSize := Bytes.size_resize _ _
  have hlt : capacity * r.recordSize < sizeLimit := Nat.lt_trans hsize (by decide)
  have hfit : (slot + 1) * r.recordSize ≤ ((b.window 0 b.capacity).resize
      (capacity * r.recordSize)).size := by
    rw [hbytes]
    exact Nat.mul_le_mul_right _ hslot
  -- within the new capacity, resizing moves no bytes
  have hbyte : ∀ j, j < r.recordSize →
      ((b.window 0 b.capacity).resize (capacity * r.recordSize)).getD (slot * r.recordSize + j) 0
        = (b.window 0 b.capacity).getD (slot * r.recordSize + j) 0 :=
    fun j hj => Bytes.getD_resize _ ((slot_lt_iff hj).2 hslot)
  rw [slotBytes_eq hbytes (by rw [hbytes]; exact hlt) hslot]
  by_cases hcap : slot < b.capacity
  · rw [if_pos hcap, hb.slotBytes_eq hcap]
    congr 1
    apply Bytes.extract_row hfit (by rw [Snapshot.size_window_slot, hrec])
    intro j hj
    have hin : slot * b.recordSize + j < (b.capacity - 0) * b.recordSize := by
      rw [Nat.sub_zero, slot_lt_iff (hrec ▸ hj)]
      exact hcap
    rw [hbyte j hj, ← hrec, Snapshot.getD_window b hin, Nat.zero_add, slot_div slot (hrec ▸ hj),
      slot_mod slot (hrec ▸ hj), Snapshot.getD_window_slot b (hrec ▸ hj)]
  · rw [if_neg hcap]
    congr 1
    apply Bytes.extract_row hfit Array.size_replicate
    intro j hj
    -- the slot lies behind all that the snapshot has
    have hout : (b.window 0 b.capacity).size ≤ slot * r.recordSize + j := by
      rw [Snapshot.size_window, Nat.sub_zero, hrec]
      exact Nat.le_of_not_lt fun hlt => hcap ((slot_lt_iff hj).1 hlt)
    rw [hbyte j hj, Array.getD_eq_getD_getElem?, Array.getElem?_eq_none hout,
      Array.getD_eq_getD_getElem?, Array.getElem?_replicate, if_pos hj]
    rfl

/-- After an update, a slot is what the snapshot has there if it was updated, and what it was if
not. -/
theorem slotBytes_patched {r : Replica} {b : Snapshot} {n start stop slot : Nat} (hb : b.Sound)
    (hrec : b.recordSize = r.recordSize) (hbytes : r.bytes.size = n * r.recordSize)
    (hlt : r.bytes.size < sizeLimit) (hle : start ≤ stop) (hcap : stop ≤ b.capacity)
    (hslot : slot < n) :
    (r.patched b start stop).slotBytes slot (slot + 1)
      = if start ≤ slot ∧ slot < stop then b.slotBytes slot else r.slotBytes slot (slot + 1) := by
  have hbytes' : (r.patched b start stop).bytes.size = n * (r.patched b start stop).recordSize := by
    rw [size_bytes_patched, recordSize_patched, hbytes]
  have hfit : (slot + 1) * r.recordSize ≤ r.bytes.size := by
    rw [hbytes]
    exact Nat.mul_le_mul_right _ hslot
  have hfit' : (slot + 1) * r.recordSize ≤ (r.patched b start stop).bytes.size := by
    rw [size_bytes_patched]
    exact hfit
  have hbyte : ∀ j, j < r.recordSize →
      (r.patched b start stop).bytes.getD (slot * r.recordSize + j) 0
        = if start ≤ slot ∧ slot < stop then b.byte slot j else r.byte slot j :=
    fun j hj => byte_patched hrec hbytes hle hj hslot
  rw [slotBytes_eq hbytes' (by rw [size_bytes_patched]; exact hlt) hslot, recordSize_patched]
  -- covered slots come from the buffer, and the others stay
  by_cases hcov : start ≤ slot ∧ slot < stop
  · rw [if_pos hcov, hb.slotBytes_eq (by omega)]
    congr 1
    apply Bytes.extract_row hfit' (by rw [Snapshot.size_window_slot, hrec])
    intro j hj
    rw [hbyte j hj, if_pos hcov, Snapshot.getD_window_slot b (hrec ▸ hj)]
  · rw [if_neg hcov, slotBytes_eq hbytes hlt hslot]
    congr 1
    have hwidth : (slot + 1) * r.recordSize = slot * r.recordSize + r.recordSize := by
      rw [Nat.add_mul, Nat.one_mul]
    apply Bytes.extract_row hfit' (by rw [Array.size_extract]; omega)
    intro j hj
    rw [hbyte j hj, if_neg hcov, Bytes.getD_extract _ hfit (by omega)]
    rfl

/-! ## Answers -/

/-- The replica has become one with `n` slots of a given content. -/
structure Becomes (r r' : Replica) (n : Nat) (content : Nat → Except Fault Bytes) : Prop where
  kind : r'.kind = r.kind
  recordSize : r'.recordSize = r.recordSize
  size_bytes : r'.bytes.size = n * r.recordSize
  capacity : r'.capacity = .ok n
  slot : ∀ slot, slot < n → r'.slotBytes slot (slot + 1) = content slot

/-- How a replica of `n` slots answers an event. -/
structure Obeys (r : Replica) (n : Nat) (e : Event) : Prop where
  /-- What is not for this array, and nothing else, is passed over. -/
  ignored : ∀ r', apply e r = .ok false r' ↔ e.kind? ≠ some r.kind ∧ r' = r
  /-- Records of another width, and nothing else, are refused for their width. -/
  mismatched : ∀ k expected actual r',
    apply e r = .error (.error (.recordSize k expected actual)) r' ↔
      e.kind? = some r.kind ∧
        (∃ b, e.buffer? = some b ∧ b.recordSize ≠ r.recordSize ∧ actual = b.recordSize) ∧
        k = r.kind ∧ expected = r.recordSize ∧ r' = r
  /-- Updates that end behind the copy or behind the snapshot, and nothing else, are refused for
  their slots. -/
  beyond : ∀ k start stop capacity r',
    apply e r = .error (.error (.outOfBounds k start stop capacity)) r' ↔
      (∃ b, e.Updates r.kind start stop b ∧ b.recordSize = r.recordSize ∧
        (n < stop ∨ b.capacity < stop)) ∧
        k = r.kind ∧ capacity = n ∧ r' = r
  /-- A new baseline is accepted. A slot is then what the snapshot has there, or zeros. -/
  rebased : ∀ capacity b, e = .replaced r.kind capacity b → b.recordSize = r.recordSize →
    ∃ r', apply e r = .ok true r' ∧ r.Becomes r' capacity fun slot =>
      if slot < b.capacity then b.slotBytes slot else .ok (Array.replicate r.recordSize 0)
  /-- All other updates are accepted. A slot is then what the snapshot has there if it was updated,
  and what it was if not. -/
  patched : ∀ start stop b, e.Updates r.kind start stop b → b.recordSize = r.recordSize →
    stop ≤ n → stop ≤ b.capacity →
    ∃ r', apply e r = .ok true r' ∧ r.Becomes r' n fun slot =>
      if start ≤ slot ∧ slot < stop then b.slotBytes slot else r.slotBytes slot (slot + 1)

/-- Exactly the events of other kinds are ignored. -/
theorem apply_ignored_iff {r r' : Replica} {e : Event} :
    apply e r = .ok false r' ↔ e.kind? ≠ some r.kind ∧ r' = r := by
  constructor
  · intro h
    have hout := outcome_apply r e
    rw [h] at hout
    cases hout with
    | ignored hkind => exact ⟨hkind, rfl⟩
  · rintro ⟨hkind, rfl⟩
    exact apply_other hkind

theorem apply_mismatched_iff {r r' : Replica} {e : Event} {k : Kind} {expected actual : Nat}
    (hregular : e.Regular r.recordSize) :
    apply e r = .error (.error (.recordSize k expected actual)) r' ↔
      e.kind? = some r.kind ∧
        (∃ b, e.buffer? = some b ∧ b.recordSize ≠ r.recordSize ∧ actual = b.recordSize) ∧
        k = r.kind ∧ expected = r.recordSize ∧ r' = r := by
  constructor
  · intro h
    have hout := outcome_apply r e
    rw [h] at hout
    cases hout with
    | mismatched hkind hbuffer _ hrec => exact ⟨hkind, ⟨_, hbuffer, hrec, rfl⟩, rfl, rfl, rfl⟩
  · rintro ⟨hkind, ⟨b, hbuffer, hrec, rfl⟩, rfl, rfl, rfl⟩
    obtain ⟨capacity, rfl⟩ | ⟨start, stop, hupdate⟩ := hregular.cases hkind hbuffer
    · exact apply_mismatched hkind hbuffer rfl hrec
    · exact apply_mismatched hkind hbuffer hupdate.slots?_eq hrec

/-- Exactly the updates that end behind the copy or behind the buffer are out of bounds. -/
theorem apply_beyond_iff {r r' : Replica} {e : Event} {k : Kind} {n start stop capacity : Nat}
    (hn : r.capacity = .ok n) :
    apply e r = .error (.error (.outOfBounds k start stop capacity)) r' ↔
      (∃ b, e.Updates r.kind start stop b ∧ b.recordSize = r.recordSize ∧
        (n < stop ∨ b.capacity < stop)) ∧
        k = r.kind ∧ capacity = n ∧ r' = r := by
  constructor
  · intro h
    have hout := outcome_apply r e
    rw [h] at hout
    cases hout with
    | beyond hupdate hrec hn' hout =>
      cases hn.symm.trans hn'
      exact ⟨⟨_, hupdate, hrec, hout⟩, rfl, rfl, rfl⟩
  · rintro ⟨⟨b, hupdate, hrec, hout⟩, rfl, rfl, rfl⟩
    exact apply_beyond hupdate hrec hn hout

theorem obeys_of_whole {r : Replica} {e : Event} {n : Nat} (hpos : 0 < r.recordSize)
    (hn : r.bytes.size = n * r.recordSize) (hlt : r.bytes.size < sizeLimit) (he : e.Genuine)
    (hregular : e.Regular r.recordSize) : r.Obeys n e where
  ignored _ := apply_ignored_iff
  mismatched _ _ _ _ := apply_mismatched_iff hregular
  beyond _ _ _ _ _ := apply_beyond_iff (capacity_eq hpos hn)
  rebased := by
    rintro capacity b rfl hrec
    have hb := he.sound rfl
    refine ⟨_, apply_rebased hrec hb.toBytes_eq hregular, rfl, rfl, Bytes.size_resize _ _,
      capacity_eq hpos (Bytes.size_resize _ _), fun slot hslot => ?_⟩
    exact slotBytes_rebased hb hrec hregular hslot
  patched := by
    intro start stop b hupdate hrec hstop hsnap
    have hb := he.sound hupdate.buffer?_eq
    have hle := hupdate.le hregular
    have hsize : (r.patched b start stop).bytes.size = n * r.recordSize := by
      rw [size_bytes_patched, hn]
    refine ⟨_, apply_patched hupdate hb hrec hpos hn hle hstop hsnap, rfl, rfl, hsize,
      capacity_eq hpos hsize, fun slot hslot => ?_⟩
    exact slotBytes_patched hb hrec hn hlt hle hsnap hslot

/-- At any point of its history, a replica takes a regular event as a patch. -/
theorem apply_pointwise {kind : Kind} {recordSize : Nat} (hpos : 0 < recordSize)
    {history : List Event} (hhistory : ∀ e ∈ history, e.Genuine) {e : Event} (he : e.Genuine)
    (hregular : e.Regular recordSize) :
    ∃ (r : Replica) (n : Nat), r = history.foldl follow { kind, recordSize } ∧ r.kind = kind ∧
      r.recordSize = recordSize ∧ r.bytes.size = n * recordSize ∧ r.capacity = .ok n ∧
      r.Obeys n e := by
  have hempty : Whole { kind, recordSize } := ⟨Nat.dvd_zero _, show 0 < sizeLimit by decide⟩
  obtain ⟨⟨n, hn⟩, hlt⟩ := hempty.foldl_follow hhistory
  obtain ⟨hkind, hsize⟩ := foldl_follow_frame history { kind, recordSize }
  generalize history.foldl follow { kind, recordSize } = r at hn hlt hkind hsize
  cases hsize
  rw [Nat.mul_comm] at hn
  exact ⟨r, n, rfl, hkind, rfl, hn, capacity_eq hpos hn, obeys_of_whole hpos hn hlt he hregular⟩

/-- A replica of four slots, of which two came from a snapshot with a byte to spare and two are
zeros; the second one is updated. -/
theorem apply_pointwise_padded :
    ∃ b c : Snapshot, Snapshot.ofBytes 2 #[1, 2, 3, 4, 5] = .ok b ∧
      Snapshot.ofBytes 2 #[9, 8, 7, 6] = .ok c ∧ (Event.range .node 1 2 c).Regular 2 ∧
      ∃ (r : Replica) (n : Nat),
        r = [Event.replaced .node 4 b].foldl follow { kind := .node, recordSize := 2 } ∧
        r.bytes = #[1, 2, 3, 4, 0, 0, 0, 0] ∧ r.Obeys n (.range .node 1 2 c) := by
  have hb : Snapshot.ofBytes 2 #[1, 2, 3, 4, 5] = .ok ⟨2, 2, 2, #[#[1, 2, 3, 4, 5]]⟩ := rfl
  have hc : Snapshot.ofBytes 2 #[9, 8, 7, 6] = .ok ⟨2, 2, 2, #[#[9, 8, 7, 6]]⟩ := rfl
  refine ⟨_, _, hb, hc, show 1 ≤ 2 by decide, ?_⟩
  have hhistory : ∀ e ∈ [Event.replaced .node 4 ⟨2, 2, 2, #[#[1, 2, 3, 4, 5]]⟩], e.Genuine := by
    intro e he
    cases List.mem_singleton.1 he
    rintro _ ⟨⟩
    exact ⟨_, .bytes hb⟩
  have hgenuine : (Event.range .node 1 2 ⟨2, 2, 2, #[#[9, 8, 7, 6]]⟩).Genuine := by
    rintro _ ⟨⟩
    exact ⟨_, .bytes hc⟩
  obtain ⟨r, n, hr, -, -, -, -, hobeys⟩ := apply_pointwise (show 0 < 2 by decide) hhistory
    hgenuine (show 1 ≤ 2 by decide)
  exact ⟨r, n, hr, hr ▸ rfl, hobeys⟩

/-- A baseline of `2 ^ 63` slots of one byte can be counted, but has no room in an array. -/
theorem baseline_without_room :
    ∃ (e : Event) (r : Replica), e = .replaced .node 9223372036854775808 (.empty 1) ∧
      r = { kind := .node, recordSize := 1 } ∧ e.Genuine ∧ 9223372036854775808 * 1 < sizeLimit ∧
      apply e r = .error (.fault .overflow) r ∧ ∀ r', apply e r ≠ .ok true r' := by
  have hfault : apply (.replaced .node 9223372036854775808 (.empty 1))
      { kind := .node, recordSize := 1 }
        = .error (.fault .overflow) { kind := .node, recordSize := 1 } := rfl
  refine ⟨_, _, rfl, rfl, ?_, by decide, hfault, ?_⟩
  · rintro _ ⟨⟩
    exact ⟨_, .empty 1⟩
  · intro r' h
    rw [hfault] at h
    cases h

end Replica

end LiveGraph
