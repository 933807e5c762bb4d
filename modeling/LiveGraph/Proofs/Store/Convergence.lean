import LiveGraph.Proofs.Replica
import LiveGraph.Proofs.Store.Step

/-!
# Stores and their replicas

A replica that applies every event of a store, from the start and in order, keeps up with it: it
accepts each event, it always has as many slots as the store, and it may differ from the store only in
slots that were set since the last flush. Right after a flush it holds the whole array.
-/

namespace LiveGraph

namespace Store

variable {ρ τ : Type} [Record ρ]

/-- The replica holds what the store last published: it has all slots, and those without pending
changes are up to date. -/
structure Agrees (s : Store ρ τ) (r : Replica) : Prop where
  kind : r.kind = Record.kind ρ
  recordSize : r.recordSize = Record.size ρ
  size_bytes : r.bytes.size = s.capacity * r.recordSize
  byte : ∀ x j, x < s.capacity → j < Record.size ρ → ¬ s.IsDirty x →
    r.byte x j = s.image.byte x j

/-! ## Updates -/

/-- An update names its slots. -/
theorem IsUpdate.unique {s : Store ρ τ} {e : Event} {start stop start' stop' : Nat}
    (h : s.IsUpdate e start stop) (h' : s.IsUpdate e start' stop') : start = start' ∧ stop = stop' := by
  rcases h with rfl | ⟨rfl, rfl⟩
  · rcases h' with h' | ⟨h', -⟩
    · cases h'
      exact ⟨rfl, rfl⟩
    · cases h'
  · rcases h' with h' | ⟨h', rfl⟩
    · cases h'
    · cases h'
      exact ⟨rfl, rfl⟩

/-- A replica with all slots accepts an update. -/
theorem WellFormed.apply_update {s : Store ρ τ} (h : s.WellFormed) {r : Replica} {e : Event}
    {start stop : Nat} (hkind : r.kind = Record.kind ρ) (hrec : r.recordSize = Record.size ρ)
    (hbytes : r.bytes.size = s.capacity * r.recordSize) (he : s.IsUpdate e start stop)
    (hle : start ≤ stop) (hcap : stop ≤ s.capacity) :
    Replica.apply e r = .ok true (r.patched s.image start stop) := by
  have hpos : 0 < r.recordSize := hrec ▸ Record.size_pos
  rcases he with rfl | ⟨rfl, rfl⟩
  · rw [← hkind]
    exact Replica.apply_range h.sound_image hrec.symm hpos hbytes hle hcap hcap
  · rw [← hkind]
    exact Replica.apply_slot h.sound_image hrec.symm hpos hbytes hcap hcap

/-- A replica with all slots accepts any updates; afterwards the slots they cover are up to date, and
those that were up to date still are. -/
theorem WellFormed.follows_updates {s : Store ρ τ} (h : s.WellFormed) {r : Replica} {es : List Event}
    (hkind : r.kind = Record.kind ρ) (hrec : r.recordSize = Record.size ρ)
    (hbytes : r.bytes.size = s.capacity * r.recordSize)
    (hes : ∀ e ∈ es, ∃ start stop, s.IsUpdate e start stop ∧ start ≤ stop ∧ stop ≤ s.capacity) :
    ∃ r', r.Follows es r' ∧ r'.kind = Record.kind ρ ∧ r'.recordSize = Record.size ρ ∧
      r'.bytes.size = s.capacity * r'.recordSize ∧
      ∀ x j, x < s.capacity → j < Record.size ρ →
        (∃ e ∈ es, ∃ start stop, s.IsUpdate e start stop ∧ start ≤ x ∧ x < stop) ∨
          r.byte x j = s.image.byte x j →
        r'.byte x j = s.image.byte x j := by
  induction es generalizing r with
  | nil =>
    refine ⟨r, .nil r, hkind, hrec, hbytes, fun x j _ _ hx => ?_⟩
    rcases hx with ⟨e, he, -⟩ | hx
    · exact absurd he List.not_mem_nil
    · exact hx
  | cons e es ih =>
    obtain ⟨start, stop, hup, hle, hcap⟩ := hes e List.mem_cons_self
    have happly := h.apply_update hkind hrec hbytes hup hle hcap
    have hbytes' : (r.patched s.image start stop).bytes.size
        = s.capacity * (r.patched s.image start stop).recordSize := by
      rw [Replica.size_bytes_patched, hbytes, Replica.recordSize_patched]
    obtain ⟨r', hfollows, hkind', hrec', hsize', hcover⟩ := ih (r := r.patched s.image start stop)
      hkind hrec hbytes' fun e he => hes e (List.mem_cons_of_mem _ he)
    refine ⟨r', .cons happly hfollows, hkind', hrec', hsize', fun x j hx hj hor => ?_⟩
    apply hcover x j hx hj
    have hpatched := Replica.byte_patched (r := r) (b := s.image) hrec.symm hbytes hle (hrec ▸ hj) hx
    -- a slot is covered by this update, or by a later one, or was up to date before
    by_cases hin : start ≤ x ∧ x < stop
    · rw [if_pos hin] at hpatched
      exact .inr hpatched
    · rw [if_neg hin] at hpatched
      rcases hor with ⟨e', he', a, b, hup', hax, hxb⟩ | hsame
      · rcases List.mem_cons.1 he' with rfl | he'
        · obtain ⟨rfl, rfl⟩ := hup.unique hup'
          exact absurd ⟨hax, hxb⟩ hin
        · exact .inl ⟨e', he', a, b, hup', hax, hxb⟩
      · exact .inr (hpatched.trans hsame)

/-! ## Steps -/

/-- The replica that holds the content of the whole array agrees. -/
theorem agrees_window {s : Store ρ τ} {r : Replica} (hkind : r.kind = Record.kind ρ)
    (hrec : r.recordSize = Record.size ρ) :
    s.Agrees { r with bytes := s.image.window 0 s.capacity } where
  kind := hkind
  recordSize := hrec
  size_bytes := by
    rw [Snapshot.size_window, hrec]
    rfl
  byte x j hx hj _ := by
    have hin : x * Record.size ρ + j < (s.capacity - 0) * s.image.recordSize := by
      show x * Record.size ρ + j < s.capacity * Record.size ρ
      rw [slot_lt_iff hj]
      exact hx
    show (s.image.window 0 s.capacity).getD (x * r.recordSize + j) 0 = _
    rw [hrec, Snapshot.getD_window _ hin]
    show s.image.byte (0 + (x * Record.size ρ + j) / Record.size ρ)
      ((x * Record.size ρ + j) % Record.size ρ) = _
    rw [slot_div x hj, slot_mod x hj, Nat.zero_add]

/-- A slot whose bytes change is noted, and the others still agree. -/
theorem Agrees.put_mark {s : Store ρ τ} {r : Replica} (h : s.WellFormed) (ha : s.Agrees r)
    {slot : Nat} (hslot : slot < s.len) {bytes : List UInt8} (hbytes : bytes.length = Record.size ρ) :
    ((s.put slot bytes).mark slot).Agrees r where
  kind := ha.kind
  recordSize := ha.recordSize
  size_bytes := ha.size_bytes
  byte x j hx hj hclean := by
    have hput := h.put slot bytes
    have hcap : slot < s.capacity := Nat.lt_of_lt_of_le hslot h.len_le
    rw [hput.tracking.isDirty_mark h.valid hcap] at hclean
    have hne : x ≠ slot := fun heq => hclean (.inl heq)
    have hsame : (s.put slot bytes).image.byte x j = s.image.byte x j := by
      rw [h.byte_put hbytes hx hj, if_neg hne]
    show r.byte x j = (s.put slot bytes).image.byte x j
    rw [hsame]
    exact ha.byte x j hx hj fun hd => hclean (.inr hd)

omit [Record ρ] in
/-- Freeing a slot is no concern of the replica. -/
theorem mark_release (s : Store ρ τ) (slot : Nat) :
    (s.release slot).mark slot
      = { s.mark slot with free := (s.release slot).free, isFree := (s.release slot).isFree } := by
  rw [release_eq]
  rfl

/-- The replica has as many slots as the store. -/
theorem Agrees.capacity_eq {s : Store ρ τ} {r : Replica} (ha : s.Agrees r) :
    r.capacity = .ok s.capacity := by
  apply Replica.capacity_eq _ ha.size_bytes
  rw [ha.recordSize]
  exact Record.size_pos

/-- A slot without pending changes reads the same in the replica. -/
theorem Agrees.slot?_eq {s : Store ρ τ} {r : Replica} (ha : s.Agrees r) (h : s.WellFormed)
    {slot : Nat} (hslot : slot < s.capacity) (hclean : ¬ s.IsDirty slot) :
    r.slot? slot = .ok (some (s.image.window slot (slot + 1))) := by
  have hlimit : s.capacity * r.recordSize < sizeLimit := by
    rw [ha.recordSize]
    exact h.sound_image.bytes_lt
  have hrow : (slot + 1) * r.recordSize ≤ s.capacity * r.recordSize := Nat.mul_le_mul_right _ hslot
  have hfirst := Snapshot.product_eq_ok (Nat.le_of_lt hslot) hlimit
  have hlast := Snapshot.product_eq_ok hslot hlimit
  have hslice := Bytes.slice_eq_ok (b := r.bytes)
    (Nat.mul_le_mul_right r.recordSize (Nat.le_succ slot)) (ha.size_bytes ▸ hrow)
  have hbytes : r.bytes.extract (slot * r.recordSize) ((slot + 1) * r.recordSize)
      = s.image.window slot (slot + 1) := by
    have hfit := ha.size_bytes ▸ hrow
    rw [ha.recordSize] at hfit ⊢
    apply Snapshot.extract_slot s.image hfit
    intro j hj
    have hbyte := ha.byte slot j hslot hj hclean
    rw [Replica.byte, ha.recordSize] at hbyte
    exact hbyte
  simp [Replica.slot?, Replica.slotBytes, Replica.extent, ha.capacity_eq, hfirst, hlast, hslice,
    hbytes, Nat.not_le_of_lt hslot, bind, Except.bind, pure, Except.pure]

/-- A replica of a store without pending changes holds the whole array. -/
theorem Agrees.bytes_eq {s : Store ρ τ} {r : Replica} (ha : s.Agrees r)
    (hclean : ∀ x, ¬ s.IsDirty x) : r.bytes = s.image.window 0 s.capacity := by
  have hsize : s.image.recordSize = Record.size ρ := rfl
  apply Bytes.ext_getD
  · rw [ha.size_bytes, ha.recordSize, Snapshot.size_window]
    rfl
  · intro k hk
    rw [ha.size_bytes, ha.recordSize] at hk
    have hslot : k / Record.size ρ < s.capacity := (Nat.div_lt_iff_lt_mul Record.size_pos).2 hk
    have hj : k % Record.size ρ < Record.size ρ := Nat.mod_lt _ Record.size_pos
    have hbyte := ha.byte _ _ hslot hj (hclean _)
    rw [Replica.byte, ha.recordSize, Nat.div_add_mod'] at hbyte
    rw [hbyte, Snapshot.getD_window _ hk, hsize, Nat.zero_add]

/-- A replica that agrees with a store accepts the events of a flush in any order, and any number of times
each, and then agrees with the flushed store. -/
theorem Agrees.delivered {s : Store ρ τ} {r : Replica} (ha : s.Agrees r) (h : s.WellFormed)
    {es : List Event} (hes : ∀ e, e ∈ es ↔ e ∈ s.flushEvents) :
    ∃ r', r.Follows es r' ∧ s.flushed.Agrees r' := by
  have hupdates : ∀ e ∈ es, ∃ start stop, s.IsUpdate e start stop ∧ start ≤ stop ∧
      stop ≤ s.capacity := by
    intro e he
    obtain ⟨start, stop, hup, hlt, hcap⟩ := h.isUpdate_of_mem ((hes e).1 he)
    exact ⟨start, stop, hup, Nat.le_of_lt hlt, hcap⟩
  obtain ⟨r', hfollows, hkind, hrec, hsize, hcover⟩ :=
    h.follows_updates ha.kind ha.recordSize ha.size_bytes hupdates
  refine ⟨r', hfollows, hkind, hrec, hsize, fun x j hx hj _ => hcover x j hx hj ?_⟩
  -- what changed is covered by an event, and what did not was up to date
  by_cases hd : s.IsDirty x
  · obtain ⟨e, he, hcovers⟩ := h.exists_isUpdate hd
    exact .inl ⟨e, (hes e).2 he, hcovers⟩
  · exact .inr (ha.byte x j hx hj hd)

variable [Inhabited τ]

/-- A replica that agrees with a store follows each of its steps. -/
theorem Step.agrees {s s' : Store ρ τ} {events : List Event} {r : Replica} (hs : Step s events s')
    (h : s.WellFormed) (ha : s.Agrees r) : ∃ r', r.Follows events r' ∧ s'.Agrees r' := by
  cases hs with
  | refuse => exact ⟨r, .nil r, ha⟩
  | recycle _ => exact ⟨r, .nil r, ha.kind, ha.recordSize, ha.size_bytes, ha.byte⟩
  | extend _ _ => exact ⟨r, .nil r, ha.kind, ha.recordSize, ha.size_bytes, ha.byte⟩
  | @grow len capacity _ hcap _ hfits =>
    -- the snapshot holds unpublished writes too, so it brings all slots up to date
    have hgrown := h.grown hcap hfits
    have happly : Replica.apply (.replaced (Record.kind ρ) capacity (s.grown capacity).image) r
        = .ok true { r with bytes := (s.grown capacity).image.window 0 capacity } := by
      rw [← ha.kind]
      exact Replica.apply_replaced hgrown.sound_image ha.recordSize.symm hfits.bytes_lt
    have hwin := agrees_window (s := s.grown capacity) ha.kind ha.recordSize
    exact ⟨_, .cons happly (.nil _), hwin.kind, hwin.recordSize, hwin.size_bytes, hwin.byte⟩
  | write slot record hslot _ => exact ⟨r, .nil r, ha.put_mark h hslot (Record.length_encode record)⟩
  | delete slot hslot =>
    have hput := ha.put_mark h hslot (Record.length_encode (Record.markDeleted (s.recordAt slot)))
    rw [mark_release]
    exact ⟨r, .nil r, hput.kind, hput.recordSize, hput.size_bytes, hput.byte⟩
  | data slot f => exact ⟨r, .nil r, ha.kind, ha.recordSize, ha.size_bytes, ha.byte⟩
  | flush => exact ha.delivered h fun _ => .rfl

/-! ## Runs -/

/-- A call on a store. -/
inductive Call (ρ : Type)
  | add (count : Nat)
  | set (slot : Nat) (value : Option ρ)
  | flush
deriving DecidableEq, Repr

namespace Call

/-- What the call does. -/
def edit : Call ρ → Edit Fault (Store ρ τ) Unit
  | add count => discard (Store.add count)
  | set slot value => Store.set slot value
  | flush => Store.flush

/-- The call asks for what the store can give: slots that there is room for, or a change of a slot
that was handed out and, if it is to be written, is not free. -/
def Admitted (s : Store ρ τ) : Call ρ → Prop
  | add count => s.HasRoom count
  | set slot none => slot < s.len
  | set slot (some _) => slot < s.len ∧ s.isFree.getD slot false = false
  | flush => True

/-- The slots that were set since the last flush, given those before the call. -/
def touch (slots : List Nat) : Call ρ → List Nat
  | add _ => slots
  | set slot _ => slot :: slots
  | flush => []

end Call

/-- The store after some calls, also where they fail, with the events published since the start. -/
def run (s : Store ρ τ) (calls : List (Call ρ)) : Tracked (Store ρ τ) :=
  calls.foldl (fun t c => c.edit.after t) ⟨s, #[]⟩

/-- The slots that the calls set since the last flush among them. -/
def touched (calls : List (Call ρ)) : List Nat := calls.foldl Call.touch []

/-- Growing changes no block's list of changes. -/
theorem modified_grown (s : Store ρ τ) (capacity b : Nat) :
    (s.grown capacity).modified b = s.modified b := by
  have hget : (s.grown capacity).changes[b]? = (padded s.changes (blockCount s.config capacity)
      (.none s.config.blockSize))[b]? := rfl
  rw [modified, modified, hget, padded, Array.getElem?_append, Array.getElem?_replicate]
  by_cases hb : b < s.changes.size
  · rw [if_pos hb]
  · rw [if_neg hb, Array.getElem?_eq_none (Nat.le_of_not_lt hb)]
    split
    · next c hc =>
      split at hc
      · cases hc
        rfl
      · cases hc
    · rfl

/-- Growing marks no slot. -/
theorem isDirty_grown (s : Store ρ τ) (capacity x : Nat) :
    (s.grown capacity).IsDirty x ↔ s.IsDirty x := by
  show _ ∈ (s.grown capacity).modified (x / s.config.blockSize) ↔ _
  rw [modified_grown]
  rfl

/-- A call marks no slots but those it sets. -/
theorem Call.isDirty_after (c : Call ρ) {t : Tracked (Store ρ τ)} (h : t.value.WellFormed)
    {slots : List Nat} (hslots : ∀ x, t.value.IsDirty x → x ∈ slots) {x : Nat}
    (hx : (c.edit.after t).value.IsDirty x) : x ∈ c.touch slots := by
  obtain ⟨s, events⟩ := t
  cases c with
  | add count =>
    have hcases := h.add_cases count events
    rw [edit, Edit.after_discard, Edit.after] at hx
    generalize Store.add count ⟨s, events⟩ = result at hcases hx
    cases hcases with
    | refused f _ => exact hslots x hx
    | recycled _ _ => exact hslots x hx
    | extended _ _ => exact hslots x hx
    | grown _ _ _ => exact hslots x ((isDirty_grown s _ x).1 hx)
  | set slot value =>
    by_cases hslot : slot < s.len
    · have hcap : slot < s.capacity := Nat.lt_of_lt_of_le hslot h.len_le
      -- whatever is written, only this slot becomes dirty
      have hmark : ∀ bytes, ((s.put slot bytes).mark slot).IsDirty x → x ∈ slot :: slots := by
        intro bytes hdirty
        rw [(h.put slot bytes).tracking.isDirty_mark h.valid hcap] at hdirty
        rcases hdirty with rfl | hdirty
        · exact List.mem_cons_self
        · exact List.mem_cons_of_mem _ (hslots x hdirty)
      cases value with
      | none =>
        rw [edit, Edit.after_of_ok (h.set_none hslot events), mark_release] at hx
        exact hmark _ hx
      | some r =>
        cases hfree : s.isFree.getD slot false with
        | false =>
          rw [edit, Edit.after_of_ok (h.set_some r hslot hfree events)] at hx
          exact hmark _ hx
        | true =>
          rw [edit, Edit.after_of_error (set_free r hslot hfree events)] at hx
          exact List.mem_cons_of_mem _ (hslots x hx)
    · rw [edit, Edit.after_of_error (set_beyond value (Nat.le_of_not_lt hslot) events)] at hx
      exact List.mem_cons_of_mem _ (hslots x hx)
  | flush =>
    rw [edit, Edit.after_of_ok (h.flush_eq events)] at hx
    exact absurd hx (h.not_isDirty_flushed x)

theorem Call.stepping (c : Call ρ) : Stepping (c.edit : Edit Fault (Store ρ τ) Unit) := by
  cases c with
  | add count =>
    intro s events h
    rw [edit, Edit.after_discard]
    exact stepping_add count s events h
  | set slot value => exact stepping_set slot value
  | flush => exact stepping_flush

/-- A replica of the right kind that has seen nothing yet. -/
def freshReplica (ρ : Type) [Record ρ] : Replica :=
  { kind := Record.kind ρ, recordSize := Record.size ρ }

/-- What holds at every point of a run: the store is well-formed, only the given slots have pending
changes, and a replica that followed from the start agrees. -/
structure Coupled (slots : List Nat) (t : Tracked (Store ρ τ)) : Prop where
  wellFormed : t.value.WellFormed
  dirty : ∀ x, t.value.IsDirty x → x ∈ slots
  replica : ∃ r, (freshReplica ρ).Follows t.events.toList r ∧ t.value.Agrees r

omit [Inhabited τ] in
/-- An empty store and a replica that has seen nothing agree. -/
theorem agrees_empty (config : StoreConfig) :
    ({ config } : Store ρ τ).Agrees (freshReplica ρ) where
  kind := rfl
  recordSize := rfl
  size_bytes := (Nat.zero_mul _).symm
  byte x _ hx := absurd hx (Nat.not_lt_zero x)

omit [Inhabited τ] in
theorem coupled_empty {config : StoreConfig} (hv : config.Valid) :
    Coupled [] (⟨{ config }, #[]⟩ : Tracked (Store ρ τ)) where
  wellFormed := wellFormed_empty hv
  dirty x hx := by simp [IsDirty, modified] at hx
  replica := ⟨freshReplica ρ, .nil _, agrees_empty config⟩

/-- Every call keeps the store and its replica coupled. -/
theorem Coupled.call {slots : List Nat} {t : Tracked (Store ρ τ)} (h : Coupled slots t)
    (c : Call ρ) : Coupled (c.touch slots) (c.edit.after t) := by
  obtain ⟨new, s', hafter, hstep⟩ := c.stepping t.value t.events h.wellFormed
  have hafter' : c.edit.after t = ⟨s', t.events ++ new.toArray⟩ := hafter
  obtain ⟨r, hfollows, hagrees⟩ := h.replica
  obtain ⟨r', hnew, hagrees'⟩ := hstep.agrees h.wellFormed hagrees
  refine ⟨?_, fun x => c.isDirty_after h.wellFormed h.dirty, r', ?_, ?_⟩
  · rw [hafter']
    exact hstep.wellFormed h.wellFormed
  · rw [hafter', Array.toList_append]
    exact hfollows.append hnew
  · rw [hafter']
    exact hagrees'

/-- At every point of every run of an empty store, a replica has kept up. -/
theorem coupled_run {config : StoreConfig} (hv : config.Valid) (calls : List (Call ρ)) :
    Coupled (touched calls) (run ({ config } : Store ρ τ) calls) := by
  have hgo : ∀ (calls : List (Call ρ)) (slots : List Nat) (t : Tracked (Store ρ τ)),
      Coupled slots t →
        Coupled (calls.foldl Call.touch slots) (calls.foldl (fun t c => c.edit.after t) t) := by
    intro calls
    induction calls with
    | nil => exact fun _ _ h => h
    | cons c calls ih => exact fun _ _ h => ih _ _ (h.call c)
  exact hgo calls [] _ (coupled_empty hv)

/-- A call that is admitted is answered. -/
theorem WellFormed.call_ok {s : Store ρ τ} (h : s.WellFormed) {c : Call ρ} (hc : c.Admitted s)
    (events : Array Event) : ∃ t, c.edit ⟨s, events⟩ = .ok () t := by
  cases c with
  | add count =>
    have hcases := h.add_cases count events
    have hmap : (Call.add count).edit ⟨s, events⟩
        = EStateM.map (fun _ => ()) (Store.add count) ⟨s, events⟩ := rfl
    rw [hmap, EStateM.map]
    generalize Store.add count ⟨s, events⟩ = result at hcases ⊢
    cases hcases with
    | refused f hroom => exact absurd hc hroom
    | recycled _ _ => exact ⟨_, rfl⟩
    | extended _ _ => exact ⟨_, rfl⟩
    | grown _ _ _ => exact ⟨_, rfl⟩
  | set slot value =>
    cases value with
    | none => exact ⟨_, h.set_none hc events⟩
    | some r => exact ⟨_, h.set_some r hc.1 hc.2 events⟩
  | flush => exact ⟨_, h.flush_eq events⟩

/-- What a consumer can rely on after some calls: the replica `r` is where the events lead. -/
structure Converged (s₀ : Store ρ τ) (calls : List (Call ρ)) (r : Replica) : Prop where
  /-- Every event was accepted. -/
  accepted : (freshReplica ρ).Follows (run s₀ calls).events.toList r
  /-- The replica has as many slots as the store. -/
  capacity : r.capacity = .ok (run s₀ calls).value.capacity
  /-- A slot that was not set since the last flush holds the same bytes. -/
  untouched : ∀ slot, slot < (run s₀ calls).value.capacity → slot ∉ touched calls →
    ∃ b bytes, (run s₀ calls).value.snapshot = .ok b ∧ b.slotBytes slot = .ok bytes ∧
      r.slot? slot = .ok (some bytes)
  /-- Right after a flush the replica holds the bytes of the whole array. -/
  flushed : ∀ before, calls = before ++ [.flush] →
    ∃ b, (run s₀ calls).value.snapshot = .ok b ∧ b.toBytes = .ok r.bytes
  /-- The store goes on to answer every call that it has to. -/
  answered : ∀ c : Call ρ, c.Admitted (run s₀ calls).value → ∃ t, c.edit (run s₀ calls) = .ok () t

/-- Whatever is called on an empty store, a replica that applies all its events converges. -/
theorem replica_converges {config : StoreConfig} (hv : config.Valid) (calls : List (Call ρ)) :
    ∃ s₀ : Store ρ τ, Store.new config = .ok s₀ ∧ ∃ r, Converged s₀ calls r := by
  have hnew : (Store.new config : Except Fault (Store ρ τ)) = .ok { config } :=
    new_eq_ok_iff.2 ⟨hv, rfl⟩
  have hrun := coupled_run (ρ := ρ) (τ := τ) hv calls
  obtain ⟨r, hfollows, hagrees⟩ := hrun.replica
  have hsnap := hrun.wellFormed.snapshot_eq
  refine ⟨{ config }, hnew, r, hfollows, hagrees.capacity_eq, ?_, ?_, ?_⟩
  · intro slot hslot hout
    have hclean : ¬ (run ({ config } : Store ρ τ) calls).value.IsDirty slot :=
      fun hd => hout (hrun.dirty slot hd)
    exact ⟨_, _, hsnap, hrun.wellFormed.sound_image.slotBytes_eq hslot,
      hagrees.slot?_eq hrun.wellFormed hslot hclean⟩
  · rintro before rfl
    -- a flush forgets what was touched
    have htouched : touched (before ++ [Call.flush]) = [] := by
      rw [touched, List.foldl_append]
      rfl
    have hclean : ∀ x, ¬ (run ({ config } : Store ρ τ) (before ++ [.flush])).value.IsDirty x := by
      intro x hd
      have hin := hrun.dirty x hd
      rw [htouched] at hin
      exact absurd hin List.not_mem_nil
    refine ⟨_, hsnap, ?_⟩
    rw [hrun.wellFormed.sound_image.toBytes_eq, hagrees.bytes_eq hclean]
    rfl
  · intro c hc
    exact hrun.wellFormed.call_ok hc _

/-- A node is written into the second block of a store, and published. -/
theorem replica_converges_write_flush :
    ({ blockSize := 2, maxModified := 1 } : StoreConfig).Valid ∧
      ∃ s₀ : Store NodeRecord Unit, Store.new { blockSize := 2, maxModified := 1 } = .ok s₀ ∧
        ∃ r, Converged s₀ [.add 3, .set 2 (some default), .flush] r :=
  ⟨by decide, replica_converges (by decide) _⟩

end Store

end LiveGraph
