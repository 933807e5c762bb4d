import LiveGraph.Proofs.Snapshot
import LiveGraph.Replica

/-!
# Replicas, slot by slot

What an event makes of a replica: a replaced array becomes the content of its snapshot, an update of
a range of slots changes the bytes of these slots and no others. `Replica.Outcome` lists all that can
happen, to any event whatsoever. `Replica.Follows` chains events that are all accepted.
-/

namespace LiveGraph

namespace Event

/-- The event is an update: the slots `start .. stop` of an array have changed. -/
inductive Updates : Event → Kind → Nat → Nat → Snapshot → Prop
  | range (k : Kind) (start stop : Nat) (b : Snapshot) :
      Updates (.range k start stop b) k start stop b
  /-- There is no slot behind the last number. -/
  | slot (k : Kind) {slot : Nat} (b : Snapshot) (h : slot + 1 < sizeLimit) :
      Updates (.slot k slot b) k slot (slot + 1) b

variable {e : Event} {k : Kind} {start stop : Nat} {b : Snapshot}

/-- What is for one array is not for another. -/
theorem kind?_ne {l : Kind} (h : e.kind? = some k) (hl : l ≠ k) : e.kind? ≠ some l := by
  rw [h]
  exact fun heq => hl (Option.some.inj heq).symm

theorem Updates.kind?_eq (h : e.Updates k start stop b) : e.kind? = some k := by
  cases h <;> rfl

theorem Updates.buffer?_eq (h : e.Updates k start stop b) : e.buffer? = some b := by
  cases h <;> rfl

theorem Updates.slots?_eq (h : e.Updates k start stop b) :
    e.slots? = .ok (some (start, stop)) := by
  cases h with
  | range => rfl
  | slot _ _ h => rw [slots?, addSize?, if_pos h]

end Event

namespace Replica

/-- Byte `j` of a slot of the copy. -/
def byte (r : Replica) (slot j : Nat) : UInt8 := r.bytes.getD (slot * r.recordSize + j) 0

/-- The replica applies the events one after the other, accepts each of them as its own, and ends
as the second replica. -/
inductive Follows : Replica → List Event → Replica → Prop
  | nil (r : Replica) : Follows r [] r
  | cons {r r₁ r₂ : Replica} {e : Event} {es : List Event} (h : apply e r = .ok true r₁)
      (hs : Follows r₁ es r₂) : Follows r (e :: es) r₂

/-- Events can be followed in two parts. -/
theorem Follows.append {r r₁ r₂ : Replica} {es fs : List Event} (h : Follows r es r₁)
    (h' : Follows r₁ fs r₂) : Follows r (es ++ fs) r₂ := by
  induction h with
  | nil => exact h'
  | cons hstep _ ih => exact .cons hstep (ih h')

/-- The replica with the slots `start .. stop` taken from a snapshot. -/
def patched (r : Replica) (b : Snapshot) (start stop : Nat) : Replica :=
  { r with bytes := r.bytes.overwrite (start * r.recordSize) (b.window start stop).toList }

@[simp] theorem recordSize_patched (r : Replica) (b : Snapshot) (start stop : Nat) :
    (r.patched b start stop).recordSize = r.recordSize := rfl

@[simp] theorem size_bytes_patched (r : Replica) (b : Snapshot) (start stop : Nat) :
    (r.patched b start stop).bytes.size = r.bytes.size := by
  simp [patched]

/-- A patch changes the bytes of its slots and no others. -/
theorem byte_patched {r : Replica} {b : Snapshot} {n start stop slot j : Nat}
    (hrec : b.recordSize = r.recordSize) (hbytes : r.bytes.size = n * r.recordSize)
    (hle : start ≤ stop) (hj : j < r.recordSize) (hslot : slot < n) :
    (r.patched b start stop).byte slot j
      = if start ≤ slot ∧ slot < stop then b.byte slot j else r.byte slot j := by
  have hin : slot * r.recordSize + j < r.bytes.size := by
    rw [hbytes, slot_lt_iff hj]
    exact hslot
  -- the bytes of the slots from the first to the last are one stretch
  have hend : start * r.recordSize + (stop - start) * r.recordSize = stop * r.recordSize := by
    rw [← Nat.add_mul]
    congr 1
    omega
  rw [byte, recordSize_patched, patched, Bytes.getD_overwrite, Array.length_toList,
    Snapshot.size_window, hrec, hend]
  simp only [slot_lt_iff hj]
  by_cases hcov : start ≤ slot ∧ slot < stop
  · have hstart : start * r.recordSize ≤ slot * r.recordSize := Nat.mul_le_mul_right _ hcov.1
    -- a byte of a covered slot stands at the same place in the window of the buffer
    have hoff : slot * r.recordSize + j - start * r.recordSize
        = (slot - start) * r.recordSize + j := by
      have hsplit : slot * r.recordSize
          = (slot - start) * r.recordSize + start * r.recordSize := by
        rw [← Nat.add_mul]
        congr 1
        omega
      omega
    rw [if_pos ⟨by omega, hcov.2, hin⟩, if_pos hcov, hoff, List.getD_eq_getElem?_getD,
      Array.getElem?_toList, ← Array.getD_eq_getD_getElem?, Snapshot.getD_window, hrec,
      slot_div _ hj, slot_mod _ hj]
    · congr 1
      omega
    · rw [hrec, slot_lt_iff hj]
      omega
  · have hout : ¬ (start * r.recordSize ≤ slot * r.recordSize + j ∧ slot < stop ∧
        slot * r.recordSize + j < r.bytes.size) := by
      rintro ⟨hlo, hhi, -⟩
      have hlt : ¬ slot < start := by
        rw [← slot_lt_iff hj]
        omega
      exact hcov ⟨by omega, hhi⟩
    rw [if_neg hout, if_neg hcov]
    rfl

/-! ## Steps -/

section

variable {α β : Type} {r r₁ : Replica}

private theorem bind_of_ok {x : Step α} {a : α} (h : x r = .ok a r₁) (f : α → Step β) :
    (x >>= f) r = f a r₁ := by
  show EStateM.bind x f r = f a r₁
  rw [EStateM.bind, h]

private theorem bind_of_error {x : Step α} {e : Failure ReplicaError} (h : x r = .error e r₁)
    (f : α → Step β) : (x >>= f) r = .error e r₁ := by
  show EStateM.bind x f r = .error e r₁
  rw [EStateM.bind, h]

private theorem lift_bind {x : Except Fault α} {a : α} (h : x = .ok a) (f : α → Step β)
    (r : Replica) : (lift x >>= f) r = f a r := by
  rw [h]
  rfl

private theorem lift_of_error {x : Except Fault α} {e : Fault} (h : x = .error e) (r : Replica) :
    (lift x : Step α) r = .error (.fault e) r := by
  rw [h]
  rfl

private theorem lift_then {γ : Type} (x : Except Fault α) (g : α → Except Fault γ)
    (f : γ → Step β) : (lift (x >>= g) >>= f) = (lift x >>= fun a => lift (g a) >>= f) := by
  cases x <;> rfl

private theorem lift_congr {x : Except Fault α} {f g : α → Step β} (h : ∀ a, f a r = g a r) :
    (lift x >>= f) r = (lift x >>= g) r := by
  cases x with
  | error e => rfl
  | ok a => exact h a

private theorem get_bind (f : Replica → Step β) (r : Replica) : (get >>= f) r = f r r := rfl

private theorem modify_bind (g : Replica → Replica) (f : PUnit → Step β) (r : Replica) :
    (modify g >>= f) r = f ⟨⟩ (g r) := rfl

end

/-! ## One event -/

/-- An event of the right kind and width is a rebase or a patch. -/
theorem apply_own {e : Event} {r : Replica} {b : Snapshot} {start stop : Nat}
    (hkind : e.kind? = some r.kind) (hbuffer : e.buffer? = some b)
    (hslots : e.slots? = .ok (some (start, stop))) (hrec : b.recordSize = r.recordSize) :
    apply e r = ((match e with
      | .replaced _ capacity _ => rebase capacity b
      | _ => patch start stop b) >>= fun _ => pure true : Step Bool) r := by
  rw [apply, get_bind, if_neg (not_not_intro hkind), lift_bind hslots, hbuffer]
  dsimp only
  rw [if_neg (not_not_intro hrec)]
  cases e with
  | _ => rfl

/-- An update of the right width is a patch. -/
theorem apply_update {e : Event} {r : Replica} {b : Snapshot} {start stop : Nat}
    (h : e.Updates r.kind start stop b) (hrec : b.recordSize = r.recordSize) :
    apply e r = (patch start stop b >>= fun _ => pure true : Step Bool) r := by
  rw [apply_own h.kind?_eq h.buffer?_eq h.slots?_eq hrec]
  cases h with
  | _ => rfl

/-- Records of another width are refused. -/
theorem apply_mismatched {e : Event} {r : Replica} {b : Snapshot} {start stop : Nat}
    (hkind : e.kind? = some r.kind) (hbuffer : e.buffer? = some b)
    (hslots : e.slots? = .ok (some (start, stop))) (hrec : b.recordSize ≠ r.recordSize) :
    apply e r = .error (.error (.recordSize r.kind r.recordSize b.recordSize)) r := by
  rw [apply, get_bind, if_neg (not_not_intro hkind), lift_bind hslots, hbuffer]
  dsimp only
  rw [if_pos hrec]
  rfl

/-- The slot behind the last number cannot be updated. -/
theorem apply_unnamed {slot : Nat} (h : sizeLimit ≤ slot + 1) (r : Replica) (b : Snapshot) :
    apply (.slot r.kind slot b) r = .error (.fault .overflow) r := by
  have hslots : Event.slots? (.slot r.kind slot b) = .error .overflow := by
    rw [Event.slots?, addSize?, if_neg (Nat.not_lt_of_le h)]
  have hkind : Event.kind? (.slot r.kind slot b) = some r.kind := rfl
  rw [apply, get_bind, if_neg (not_not_intro hkind)]
  exact bind_of_error (lift_of_error hslots r) _

/-! ### A new baseline -/

/-- Without a readable snapshot there is no new content. -/
theorem rebase_unreadable {b : Snapshot} {f : Fault} (h : b.toBytes = .error f) (capacity : Nat)
    (r : Replica) : rebase capacity b r = .error (.fault f) r := by
  rw [rebase]
  exact bind_of_error (lift_of_error h r) _

/-- The content of a snapshot is taken over before the room for it is made. -/
theorem rebase_oversized {b : Snapshot} {bytes : Bytes} {capacity : Nat} {r : Replica}
    (h : b.toBytes = .ok bytes) (hsize : arrayLimit ≤ capacity * r.recordSize) :
    rebase capacity b r = .error (.fault .overflow) { r with bytes } := by
  rw [rebase, lift_bind h, modify_bind, get_bind]
  by_cases hlt : capacity * r.recordSize < sizeLimit
  · have hprod : Snapshot.product capacity r.recordSize = .ok (capacity * r.recordSize) :=
      Snapshot.product_eq_ok (Nat.le_refl _) hlt
    have hbig : fitsArray (capacity * r.recordSize) 1 = false := by
      rw [fitsArray, Nat.mul_one]
      exact decide_eq_false (Nat.not_lt_of_le hsize)
    rw [lift_bind hprod, hbig]
    rfl
  · have hprod : Snapshot.product capacity r.recordSize = .error .overflow := by
      rw [Snapshot.product, mulSize?, if_neg hlt]
    exact bind_of_error (lift_of_error hprod _) _

/-- The content of a snapshot is taken over, and cut or padded to the room for `capacity` slots. -/
theorem rebase_fits {b : Snapshot} {bytes : Bytes} {capacity : Nat} {r : Replica}
    (h : b.toBytes = .ok bytes) (hsize : capacity * r.recordSize < arrayLimit) :
    rebase capacity b r = .ok () { r with bytes := bytes.resize (capacity * r.recordSize) } := by
  have hlt : capacity * r.recordSize < sizeLimit := Nat.lt_trans hsize (by decide)
  have hprod : Snapshot.product capacity r.recordSize = .ok (capacity * r.recordSize) :=
    Snapshot.product_eq_ok (Nat.le_refl _) hlt
  have harray : fitsArray (capacity * r.recordSize) 1 = true := by
    rw [fitsArray, Nat.mul_one]
    exact decide_eq_true hsize
  rw [rebase, lift_bind h, modify_bind, get_bind, lift_bind hprod, harray]
  rfl

/-- A replaced array becomes the content of its snapshot, cut or padded. -/
theorem apply_rebased {r : Replica} {b : Snapshot} {bytes : Bytes} {capacity : Nat}
    (hrec : b.recordSize = r.recordSize) (h : b.toBytes = .ok bytes)
    (hsize : capacity * r.recordSize < arrayLimit) :
    apply (.replaced r.kind capacity b) r
      = .ok true { r with bytes := bytes.resize (capacity * r.recordSize) } := by
  rw [apply_own rfl rfl rfl hrec]
  exact bind_of_ok (rebase_fits h hsize) _

/-- A replaced array that is too large becomes the content of its snapshot all the same. -/
theorem apply_oversized {r : Replica} {b : Snapshot} {bytes : Bytes} {capacity : Nat}
    (hrec : b.recordSize = r.recordSize) (h : b.toBytes = .ok bytes)
    (hsize : arrayLimit ≤ capacity * r.recordSize) :
    apply (.replaced r.kind capacity b) r = .error (.fault .overflow) { r with bytes } := by
  rw [apply_own rfl rfl rfl hrec]
  exact bind_of_error (rebase_oversized h hsize) _

/-- A replaced array becomes the whole content of its snapshot. -/
theorem apply_replaced {r : Replica} {b : Snapshot} (h : b.Sound)
    (hrec : b.recordSize = r.recordSize) (hfit : b.capacity * b.recordSize < arrayLimit) :
    apply (.replaced r.kind b.capacity b) r = .ok true { r with bytes := b.window 0 b.capacity } := by
  have hsize : (b.window 0 b.capacity).size = b.capacity * r.recordSize := by
    rw [Snapshot.size_window, Nat.sub_zero, hrec]
  rw [apply_rebased hrec h.toBytes_eq (hrec ▸ hfit), Bytes.resize, if_pos hsize]

/-- Slots that have bytes can be counted. -/
theorem capacity_of_pos {r : Replica} (hpos : 0 < r.recordSize) :
    r.capacity = .ok (r.bytes.size / r.recordSize) := by
  rw [capacity, if_neg (Nat.ne_of_gt hpos)]

/-- The slots of a copy without a rest. -/
theorem capacity_eq {r : Replica} {n : Nat} (hpos : 0 < r.recordSize)
    (hbytes : r.bytes.size = n * r.recordSize) : r.capacity = .ok n := by
  rw [capacity_of_pos hpos, hbytes, Nat.mul_div_cancel _ hpos]

/-! ### An update -/

/-- The bytes of the copy with the slots `start .. stop` from a snapshot. -/
def copied (r : Replica) (start stop : Nat) (b : Snapshot) : Except Fault Bytes := do
  let (first, last) ← r.extent start stop
  let dst ← r.bytes.slice first last
  let (_, changed) ← b.copyRange start stop dst
  return r.bytes.overwrite first changed.toList

/-- Slots that replica and snapshot have are copied, if they can be. -/
theorem patch_eq_copied {r : Replica} {b : Snapshot} {n start stop : Nat} (hn : r.capacity = .ok n)
    (hin : stop ≤ n ∧ stop ≤ b.capacity) :
    patch start stop b r
      = (lift (r.copied start stop b) >>= fun bytes => modify ({ · with bytes }) : Step Unit) r := by
  have hnot : ¬ (n < stop ∨ b.capacity < stop) := by omega
  rw [patch, get_bind, lift_bind hn, if_neg hnot, copied, lift_then]
  apply lift_congr
  rintro ⟨first, last⟩
  rw [lift_then]
  apply lift_congr
  intro dst
  rw [lift_then]
  apply lift_congr
  intro
  rfl

/-- Slots that replica and snapshot have can be copied, if they do not run backwards. -/
theorem copied_eq {r : Replica} {b : Snapshot} {n start stop : Nat} (h : b.Sound)
    (hrec : b.recordSize = r.recordSize) (hn : n * r.recordSize ≤ r.bytes.size) (hle : start ≤ stop)
    (hin : stop ≤ n ∧ stop ≤ b.capacity) :
    r.copied start stop b = .ok (r.patched b start stop).bytes := by
  have hlt : b.capacity * r.recordSize < sizeLimit := hrec ▸ h.bytes_lt
  -- the products are sizes, because the buffer holds that many bytes
  have hextent : r.extent start stop = .ok (start * r.recordSize, stop * r.recordSize) := by
    rw [extent, Snapshot.product_eq_ok (Nat.le_trans hle hin.2) hlt,
      Snapshot.product_eq_ok hin.2 hlt]
    rfl
  have hfit : stop * r.recordSize ≤ r.bytes.size :=
    Nat.le_trans (Nat.mul_le_mul_right r.recordSize hin.1) hn
  have hslice := Bytes.slice_eq_ok (b := r.bytes) (Nat.mul_le_mul_right r.recordSize hle) hfit
  have hdst : (r.bytes.extract (start * r.recordSize) (stop * r.recordSize)).size
      = (stop - start) * b.recordSize := by
    rw [Array.size_extract, Nat.min_eq_left hfit, hrec, Nat.sub_mul]
  rw [copied, hextent]
  show (r.bytes.slice (start * r.recordSize) (stop * r.recordSize) >>= _) = _
  rw [hslice]
  show (b.copyRange start stop _ >>= _) = _
  rw [h.copyRange_exact hle hin.2 hdst]
  rfl

/-- Slots that run backwards cannot be copied. -/
theorem copied_backwards {r : Replica} {start stop : Nat} (hpos : 0 < r.recordSize)
    (hlt : stop < start) (b : Snapshot) : ∃ f, r.copied start stop b = .error f := by
  have hmul : ¬ (start * r.recordSize ≤ stop * r.recordSize ∧ stop * r.recordSize ≤ r.bytes.size) := by
    have := Nat.mul_lt_mul_of_pos_right hlt hpos
    omega
  rw [copied, extent]
  -- already the first product may be too large
  by_cases hfirst : start * r.recordSize < sizeLimit
  · have hlast : stop * r.recordSize < sizeLimit :=
      Nat.lt_of_le_of_lt (Nat.mul_le_mul_right _ (Nat.le_of_lt hlt)) hfirst
    refine ⟨.outOfRange, ?_⟩
    rw [Snapshot.product_eq_ok (Nat.le_refl start) hfirst, Snapshot.product_eq_ok (Nat.le_refl stop) hlast]
    show (r.bytes.slice (start * r.recordSize) (stop * r.recordSize) >>= _) = _
    rw [Bytes.slice, if_neg hmul]
    rfl
  · refine ⟨.overflow, ?_⟩
    rw [Snapshot.product, mulSize?, if_neg hfirst]
    rfl

/-- Slots that replica and snapshot have are copied. -/
theorem patch_eq {r : Replica} {b : Snapshot} {n start stop : Nat} (h : b.Sound)
    (hrec : b.recordSize = r.recordSize) (hpos : 0 < r.recordSize)
    (hbytes : r.bytes.size = n * r.recordSize) (hle : start ≤ stop) (hn : stop ≤ n)
    (hcap : stop ≤ b.capacity) : patch start stop b r = .ok () (r.patched b start stop) := by
  rw [patch_eq_copied (capacity_eq hpos hbytes) ⟨hn, hcap⟩]
  exact lift_bind (copied_eq h hrec (Nat.le_of_eq hbytes.symm) hle ⟨hn, hcap⟩) _ r

/-- A replica whose slots cannot be counted takes no update. -/
theorem patch_uncounted {r : Replica} {f : Fault} (h : r.capacity = .error f) (start stop : Nat)
    (b : Snapshot) : patch start stop b r = .error (.fault f) r := by
  rw [patch, get_bind]
  exact bind_of_error (lift_of_error h r) _

/-- Slots that the replica or the snapshot does not have are refused. -/
theorem patch_beyond {r : Replica} {b : Snapshot} {n stop : Nat} (hn : r.capacity = .ok n)
    (hout : n < stop ∨ b.capacity < stop) (start : Nat) :
    patch start stop b r = .error (.error (.outOfBounds r.kind start stop n)) r := by
  rw [patch, get_bind, lift_bind hn, if_pos hout]
  rfl

/-- An update of slots that replica and snapshot have is copied. -/
theorem apply_patched {e : Event} {r : Replica} {b : Snapshot} {n start stop : Nat}
    (hupdate : e.Updates r.kind start stop b) (h : b.Sound) (hrec : b.recordSize = r.recordSize)
    (hpos : 0 < r.recordSize) (hbytes : r.bytes.size = n * r.recordSize) (hle : start ≤ stop)
    (hn : stop ≤ n) (hcap : stop ≤ b.capacity) :
    apply e r = .ok true (r.patched b start stop) := by
  rw [apply_update hupdate hrec]
  exact bind_of_ok (patch_eq h hrec hpos hbytes hle hn hcap) _

/-- An update of slots that the replica or the snapshot does not have is refused, and changes
nothing. -/
theorem apply_beyond {e : Event} {r : Replica} {b : Snapshot} {n start stop : Nat}
    (hupdate : e.Updates r.kind start stop b) (hrec : b.recordSize = r.recordSize)
    (hn : r.capacity = .ok n) (hout : n < stop ∨ b.capacity < stop) :
    apply e r = .error (.error (.outOfBounds r.kind start stop n)) r := by
  rw [apply_update hupdate hrec]
  exact bind_of_error (patch_beyond hn hout start) _

/-- An update of slots that cannot be copied has no answer, and changes nothing. -/
theorem apply_broken {e : Event} {r : Replica} {b : Snapshot} {n start stop : Nat} {f : Fault}
    (hupdate : e.Updates r.kind start stop b) (hrec : b.recordSize = r.recordSize)
    (hn : r.capacity = .ok n) (hin : stop ≤ n ∧ stop ≤ b.capacity)
    (h : r.copied start stop b = .error f) : apply e r = .error (.fault f) r := by
  have hpatch : patch start stop b r = _ := patch_eq_copied hn hin
  rw [bind_of_error (lift_of_error h r)] at hpatch
  rw [apply_update hupdate hrec]
  exact bind_of_error hpatch _

/-- A changed range of slots is copied. -/
theorem apply_range {r : Replica} {b : Snapshot} {n start stop : Nat} (h : b.Sound)
    (hrec : b.recordSize = r.recordSize) (hpos : 0 < r.recordSize)
    (hbytes : r.bytes.size = n * r.recordSize) (hle : start ≤ stop) (hn : stop ≤ n)
    (hcap : stop ≤ b.capacity) :
    apply (.range r.kind start stop b) r = .ok true (r.patched b start stop) :=
  apply_patched (.range r.kind start stop b) h hrec hpos hbytes hle hn hcap

/-- A changed range that ends behind the copy is refused, and changes nothing. -/
theorem apply_range_beyond {r : Replica} {b : Snapshot} {n start stop : Nat}
    (hrec : b.recordSize = r.recordSize) (hpos : 0 < r.recordSize)
    (hbytes : r.bytes.size = n * r.recordSize) (hn : n < stop) :
    apply (.range r.kind start stop b) r = .error (.error (.outOfBounds r.kind start stop n)) r :=
  apply_beyond (.range r.kind start stop b) hrec (capacity_eq hpos hbytes) (.inl hn)

/-- A changed slot behind the copy is refused, and changes nothing. -/
theorem apply_slot_beyond {r : Replica} {b : Snapshot} {n slot : Nat}
    (hrec : b.recordSize = r.recordSize) (hpos : 0 < r.recordSize)
    (hbytes : r.bytes.size = n * r.recordSize) (hnum : slot + 1 < sizeLimit) (hn : n ≤ slot) :
    apply (.slot r.kind slot b) r
      = .error (.error (.outOfBounds r.kind slot (slot + 1) n)) r :=
  apply_beyond (.slot r.kind b hnum) hrec (capacity_eq hpos hbytes) (.inl (Nat.lt_succ_of_le hn))

/-- One changed slot is copied. -/
theorem apply_slot {r : Replica} {b : Snapshot} {n slot : Nat} (h : b.Sound)
    (hrec : b.recordSize = r.recordSize) (hpos : 0 < r.recordSize)
    (hbytes : r.bytes.size = n * r.recordSize) (hn : slot < n) (hcap : slot < b.capacity) :
    apply (.slot r.kind slot b) r = .ok true (r.patched b slot (slot + 1)) := by
  have hnum : slot + 1 < sizeLimit := by
    have hcount := Nat.le_mul_of_pos_right b.capacity (hrec ▸ hpos)
    have hlt := h.bytes_lt
    omega
  exact apply_patched (.slot r.kind b hnum) h hrec hpos hbytes (Nat.le_succ slot) hn hcap

/-- An event for the other array changes nothing. -/
theorem apply_other {r : Replica} {e : Event} (h : e.kind? ≠ some r.kind) :
    apply e r = .ok false r := by
  rw [apply, get_bind, if_pos h]
  rfl

/-! ## All that can happen -/

/-- How a replica answers an event, and what it then holds. -/
inductive Outcome (r : Replica) :
    Event → EStateM.Result (Failure ReplicaError) Replica Bool → Prop
  /-- Events for the other array and news of tasks are passed over. -/
  | ignored {e : Event} (hkind : e.kind? ≠ some r.kind) : Outcome r e (.ok false r)
  /-- The slot behind the last number cannot be updated. -/
  | unnamed {slot : Nat} {b : Snapshot} (h : sizeLimit ≤ slot + 1) :
      Outcome r (.slot r.kind slot b) (.error (.fault .overflow) r)
  /-- Records of another width are refused. -/
  | mismatched {e : Event} {b : Snapshot} {start stop : Nat} (hkind : e.kind? = some r.kind)
      (hbuffer : e.buffer? = some b) (hslots : e.slots? = .ok (some (start, stop)))
      (hrec : b.recordSize ≠ r.recordSize) :
      Outcome r e (.error (.error (.recordSize r.kind r.recordSize b.recordSize)) r)
  /-- The content of the snapshot cannot be read. -/
  | unreadable {capacity : Nat} {b : Snapshot} {f : Fault} (hrec : b.recordSize = r.recordSize)
      (h : b.toBytes = .error f) : Outcome r (.replaced r.kind capacity b) (.error (.fault f) r)
  /-- The content of the snapshot is taken over, but there is no room for so many slots. -/
  | oversized {capacity : Nat} {b : Snapshot} {bytes : Bytes} (hrec : b.recordSize = r.recordSize)
      (h : b.toBytes = .ok bytes) (hsize : arrayLimit ≤ capacity * r.recordSize) :
      Outcome r (.replaced r.kind capacity b) (.error (.fault .overflow) { r with bytes })
  /-- The content of the snapshot is taken over, and cut or padded. -/
  | rebased {capacity : Nat} {b : Snapshot} {bytes : Bytes} (hrec : b.recordSize = r.recordSize)
      (h : b.toBytes = .ok bytes) (hsize : capacity * r.recordSize < arrayLimit) :
      Outcome r (.replaced r.kind capacity b)
        (.ok true { r with bytes := bytes.resize (capacity * r.recordSize) })
  /-- Slots of no bytes cannot be counted. -/
  | uncounted {e : Event} {start stop : Nat} {b : Snapshot} {f : Fault}
      (hupdate : e.Updates r.kind start stop b) (hrec : b.recordSize = r.recordSize)
      (h : r.capacity = .error f) : Outcome r e (.error (.fault f) r)
  /-- Slots that the replica or the snapshot does not have are refused. -/
  | beyond {e : Event} {n start stop : Nat} {b : Snapshot}
      (hupdate : e.Updates r.kind start stop b) (hrec : b.recordSize = r.recordSize)
      (hn : r.capacity = .ok n) (hout : n < stop ∨ b.capacity < stop) :
      Outcome r e (.error (.error (.outOfBounds r.kind start stop n)) r)
  /-- The slots cannot be copied. -/
  | broken {e : Event} {n start stop : Nat} {b : Snapshot} {f : Fault}
      (hupdate : e.Updates r.kind start stop b) (hrec : b.recordSize = r.recordSize)
      (hn : r.capacity = .ok n) (hin : stop ≤ n ∧ stop ≤ b.capacity)
      (h : r.copied start stop b = .error f) : Outcome r e (.error (.fault f) r)
  /-- The slots are copied. -/
  | patched {e : Event} {n start stop : Nat} {b : Snapshot} {bytes : Bytes}
      (hupdate : e.Updates r.kind start stop b) (hrec : b.recordSize = r.recordSize)
      (hn : r.capacity = .ok n) (hin : stop ≤ n ∧ stop ≤ b.capacity)
      (h : r.copied start stop b = .ok bytes) : Outcome r e (.ok true { r with bytes })

/-- A new baseline of the kind of the replica ends in one of four ways. -/
private theorem outcome_replaced (r : Replica) (capacity : Nat) (b : Snapshot) :
    Outcome r (.replaced r.kind capacity b) (apply (.replaced r.kind capacity b) r) := by
  by_cases hrec : b.recordSize = r.recordSize
  · cases h : b.toBytes with
    | error f =>
      rw [apply_own rfl rfl rfl hrec, bind_of_error (rebase_unreadable h capacity r)]
      exact .unreadable hrec h
    | ok bytes =>
      by_cases hsize : capacity * r.recordSize < arrayLimit
      · rw [apply_rebased hrec h hsize]
        exact .rebased hrec h hsize
      · rw [apply_oversized hrec h (Nat.le_of_not_lt hsize)]
        exact .oversized hrec h (Nat.le_of_not_lt hsize)
  · rw [apply_mismatched rfl rfl rfl hrec]
    exact .mismatched rfl rfl rfl hrec

/-- An update of the kind of the replica ends in one of five ways. -/
private theorem outcome_update {r : Replica} {e : Event} {start stop : Nat} {b : Snapshot}
    (hupdate : e.Updates r.kind start stop b) : Outcome r e (apply e r) := by
  by_cases hrec : b.recordSize = r.recordSize
  · cases hn : r.capacity with
    | error f =>
      rw [apply_update hupdate hrec, bind_of_error (patch_uncounted hn start stop b)]
      exact .uncounted hupdate hrec hn
    | ok n =>
      -- the last slot is compared with both sides before bytes are copied
      by_cases hout : n < stop ∨ b.capacity < stop
      · rw [apply_beyond hupdate hrec hn hout]
        exact .beyond hupdate hrec hn hout
      · have hin : stop ≤ n ∧ stop ≤ b.capacity := by omega
        cases h : r.copied start stop b with
        | error f =>
          rw [apply_broken hupdate hrec hn hin h]
          exact .broken hupdate hrec hn hin h
        | ok bytes =>
          have hpatch : patch start stop b r = _ := patch_eq_copied hn hin
          rw [lift_bind h] at hpatch
          rw [apply_update hupdate hrec, bind_of_ok hpatch]
          exact .patched hupdate hrec hn hin h
  · rw [apply_mismatched hupdate.kind?_eq hupdate.buffer?_eq hupdate.slots?_eq hrec]
    exact .mismatched hupdate.kind?_eq hupdate.buffer?_eq hupdate.slots?_eq hrec

/-- Every event has one of the outcomes. -/
theorem outcome_apply (r : Replica) (e : Event) : Outcome r e (apply e r) := by
  by_cases hkind : e.kind? = some r.kind
  · cases e with
    | task name => cases hkind
    | replaced k capacity b =>
      cases hkind
      exact outcome_replaced r capacity b
    | range k start stop b =>
      cases hkind
      exact outcome_update (.range r.kind start stop b)
    | slot k slot b =>
      cases hkind
      -- the slot behind the last one has no number
      by_cases hnum : slot + 1 < sizeLimit
      · exact outcome_update (.slot r.kind b hnum)
      · rw [apply_unnamed (Nat.le_of_not_lt hnum)]
        exact .unnamed (Nat.le_of_not_lt hnum)
  · rw [apply_other hkind]
    exact .ignored hkind

/-- An event is accepted by the replica of its kind, and leaves its kind. -/
theorem kind_of_apply {e : Event} {r r' : Replica} (h : apply e r = .ok true r') :
    e.kind? = some r.kind ∧ r'.kind = r.kind := by
  have hout := outcome_apply r e
  rw [h] at hout
  cases hout with
  | rebased => exact ⟨rfl, rfl⟩
  | patched hupdate => exact ⟨hupdate.kind?_eq, rfl⟩

/-- Whatever the event, a replica keeps its kind and the width of its records. -/
theorem follow_frame (r : Replica) (e : Event) :
    (r.follow e).kind = r.kind ∧ (r.follow e).recordSize = r.recordSize := by
  have hout := outcome_apply r e
  rw [follow]
  generalize apply e r = answer at hout
  cases hout <;> exact ⟨rfl, rfl⟩

/-- No events change the kind of a replica or the size of its records. -/
theorem foldl_follow_frame (es : List Event) (r : Replica) :
    (es.foldl follow r).kind = r.kind ∧ (es.foldl follow r).recordSize = r.recordSize := by
  induction es generalizing r with
  | nil => exact ⟨rfl, rfl⟩
  | cons e es ih =>
    obtain ⟨hkind, hsize⟩ := follow_frame r e
    rw [List.foldl_cons, (ih (r.follow e)).1, (ih (r.follow e)).2]
    exact ⟨hkind, hsize⟩

/-- An event that is refused changes nothing. -/
theorem eq_of_refused {e : Event} {r r' : Replica} {err : ReplicaError}
    (h : apply e r = .error (.error err) r') : r' = r := by
  have hout := outcome_apply r e
  rw [h] at hout
  cases hout <;> rfl

end Replica

end LiveGraph
