import LiveGraph.Proofs.Store.Publication

/-!
# Flushes that are broken off

Whoever receives an event may give up, and then the flush that publishes it ends there,
`Store.flushUntil`. The list of dirty blocks is empty by then, while the block of that event and the
blocks behind it still have their changes. Such a block is stranded: only a change in a block without
changes puts it on the list, and only a flush that finds it on the list forgets its changes. So no
later flush publishes anything about it.
-/

namespace LiveGraph

/-- The moves before the event of a given number. -/
def FlushMove.before : Nat → List FlushMove → List FlushMove
  | _, [] => []
  | 0, .publish _ :: _ => []
  | k + 1, .publish e :: moves => .publish e :: before k moves
  | k, .settle b :: moves => .settle b :: before k moves

/-- What is done before the break is part of the whole flush. -/
theorem FlushMove.mem_of_mem_before {m : FlushMove} {k : Nat} {moves : List FlushMove}
    (h : m ∈ before k moves) : m ∈ moves := by
  induction moves generalizing k with
  | nil =>
    rw [before] at h
    exact h
  | cons first moves ih =>
    cases first with
    | settle b =>
      rw [before] at h
      rcases List.mem_cons.1 h with rfl | h
      · exact List.mem_cons_self
      · exact List.mem_cons_of_mem _ (ih h)
    | publish e =>
      cases k with
      | zero =>
        rw [before] at h
        exact absurd h List.not_mem_nil
      | succ k =>
        rw [before] at h
        rcases List.mem_cons.1 h with rfl | h
        · exact List.mem_cons_self
        · exact List.mem_cons_of_mem _ (ih h)

/-- Some events are published whole if they come before the given number, else in part. -/
theorem FlushMove.before_publishes (events : List Event) (k : Nat) (moves : List FlushMove) :
    before k (events.map .publish ++ moves)
      = if events.length ≤ k then events.map .publish ++ before (k - events.length) moves
        else (events.take k).map .publish := by
  induction events generalizing k with
  | nil => simp
  | cons e events ih =>
    cases k with
    | zero => simp [before]
    | succ k =>
      rw [List.map_cons, List.cons_append, before, ih]
      simp only [List.length_cons, Nat.add_le_add_iff_right, Nat.add_sub_add_right]
      split
      · rfl
      · rfl

/-- A further change leaves a block with changes. -/
theorem BlockChanges.Sound.modified_mark_ne {c : BlockChanges} {n : Nat} (h : c.Sound n)
    (hne : c.modified ≠ #[]) (o : UInt16) : (c.mark o).modified ≠ #[] := by
  obtain ⟨p, hp⟩ := Array.exists_mem_of_ne_empty c.modified hne
  exact Array.ne_empty_of_mem ((mem_modified_mark h o p).2 (.inr hp))

namespace Store

variable {ρ τ : Type} [Record ρ]

/-! ## The broken-off flush -/

/-- A flush whose event of number `k` finds a receiver that gives up. -/
def flushUntil (k : Nat) : Edit Fault (Store ρ τ) Unit := flushBy (FlushMove.before k)

/-- The first of some blocks, those whose events all come before the event of a given number. -/
def reached (event : Nat → List Event) : Nat → List Nat → List Nat
  | _, [] => []
  | k, b :: bs =>
    if (event b).length ≤ k then b :: reached event (k - (event b).length) bs else []

/-- The store after a flush was broken off. -/
def interrupted (s : Store ρ τ) (k : Nat) : Store ρ τ :=
  { s with
    changes := settle s.changes (reached (s.blockEvents s.image) k s.dirtyBlocks.toList)
    dirtyBlocks := #[] }

/-- With enough events all blocks are reached. -/
theorem reached_all (event : Nat → List Event) (k : Nat) (bs : List Nat)
    (h : (bs.flatMap event).length ≤ k) : reached event k bs = bs := by
  induction bs generalizing k with
  | nil => rfl
  | cons b bs ih =>
    rw [List.flatMap_cons, List.length_append] at h
    rw [reached, if_pos (by omega), ih _ (by omega)]

/-- The block of the event of number `k` is the first that is not reached. -/
theorem reached_split (event : Nat → List Event) (k : Nat) (bs : List Nat) (e : Event)
    (h : (bs.flatMap event)[k]? = some e) :
    ∃ b rest, bs = reached event k bs ++ b :: rest ∧ e ∈ event b := by
  induction bs generalizing k with
  | nil => simp at h
  | cons b bs ih =>
    rw [List.flatMap_cons] at h
    rw [reached]
    by_cases hk : (event b).length ≤ k
    · rw [List.getElem?_append_right hk] at h
      obtain ⟨a, rest, hbs, he⟩ := ih _ h
      refine ⟨a, rest, ?_, he⟩
      rw [if_pos hk, List.cons_append, ← hbs]
    · rw [List.getElem?_append_left (by omega)] at h
      exact ⟨b, bs, by rw [if_neg hk, List.nil_append], List.mem_of_getElem? h⟩

/-- The events of the blocks that are reached come before the event of the given number. -/
theorem mem_take_of_reached {event : Nat → List Event} {k b : Nat} {bs : List Nat} {e : Event}
    (hb : b ∈ reached event k bs) (he : e ∈ event b) : e ∈ (bs.flatMap event).take k := by
  induction bs generalizing k with
  | nil => exact absurd hb List.not_mem_nil
  | cons a bs ih =>
    rw [reached] at hb
    split at hb
    · next hk =>
      rw [List.flatMap_cons, List.take_append, List.take_of_length_le hk, List.mem_append]
      rcases List.mem_cons.1 hb with rfl | hb
      · exact .inl he
      · exact .inr (ih hb)
    · exact absurd hb List.not_mem_nil

omit [Record ρ] in
/-- The moves before an event publish the events before it, and forget the changes of the blocks
that are reached. -/
private theorem forM_before (event : Nat → List Event) (bs : List Nat) (k : Nat)
    (t : Tracked (Store ρ τ)) :
    (FlushMove.before k (bs.flatMap fun b => (event b).map FlushMove.publish ++ [.settle b])).forM
        takeMove t
      = .ok () ⟨{ t.value with changes := settle t.value.changes (reached event k bs) },
          t.events ++ ((bs.flatMap event).take k).toArray⟩ := by
  induction bs generalizing k t with
  | nil => simp [FlushMove.before, reached, settle, pure, EStateM.pure]
  | cons b bs ih =>
    rw [List.flatMap_cons, List.flatMap_cons, List.append_assoc, FlushMove.before_publishes, reached,
      List.take_append]
    -- the break comes behind the events of the block, or among them
    by_cases hk : (event b).length ≤ k
    · have hsettle : takeMove (.settle b) (⟨t.value, t.events ++ (event b).toArray⟩ :
          Tracked (Store ρ τ)) = .ok () ⟨{ t.value with
            changes := t.value.changes.modify b (·.clear) }, t.events ++ (event b).toArray⟩ := rfl
      rw [if_pos hk, if_pos hk, Edit.forM_append_of_ok (forM_publishMoves _ t),
        List.singleton_append, FlushMove.before, Edit.forM_cons_of_ok hsettle, ih,
        List.take_of_length_le hk]
      simp [settle]
    · have hzero : k - (event b).length = 0 := by omega
      rw [if_neg hk, if_neg hk, forM_publishMoves, hzero]
      simp [settle]

/-- What a broken-off flush leaves. -/
theorem WellFormed.flushUntil_eq {s : Store ρ τ} (h : s.WellFormed) (k : Nat)
    (events : Array Event) :
    flushUntil k ⟨s, events⟩
      = .ok () ⟨s.interrupted k, events ++ (s.flushEvents.take k).toArray⟩ := by
  have hnil : FlushMove.before k [] = [] := by rw [FlushMove.before]
  rw [flushUntil, h.flushBy_eq hnil, flushMoves, forM_before]
  rfl

/-- A block keeps its changes unless it is reached. -/
theorem modified_interrupted (s : Store ρ τ) (k b : Nat) :
    (s.interrupted k).modified b
      = if b ∈ reached (s.blockEvents s.image) k s.dirtyBlocks.toList then #[]
        else s.modified b := by
  rw [modified, modified, interrupted, getElem?_settle]
  cases s.changes[b]? with
  | none => simp
  | some c =>
    by_cases hb : b ∈ reached (s.blockEvents s.image) k s.dirtyBlocks.toList
    · simp [hb, BlockChanges.clear]
    · simp [hb]

/-- A flush that publishes all its events forgets all changes. -/
theorem WellFormed.modified_interrupted_all {s : Store ρ τ} (h : s.WellFormed) {k : Nat}
    (hk : s.flushEvents.length ≤ k) (b : Nat) : (s.interrupted k).modified b = #[] := by
  rw [modified_interrupted, reached_all _ _ _ hk]
  split
  · rfl
  · next hclean =>
    rw [← Array.mem_def, h.tracking.mem_dirty] at hclean
    rw [modified]
    split
    · next c hc => exact Classical.byContradiction fun hne => hclean ⟨c, hc, hne⟩
    · rfl

/-- The block of the event that was not received keeps its changes. -/
theorem WellFormed.exists_unreached {s : Store ρ τ} (h : s.WellFormed) {k : Nat} {e : Event}
    (he : s.flushEvents[k]? = some e) :
    ∃ b ∈ s.dirtyBlocks, e ∈ s.blockEvents s.image b ∧ s.modified b ≠ #[] ∧
      (s.interrupted k).modified b = s.modified b := by
  obtain ⟨b, rest, hsplit, heb⟩ := reached_split _ k _ e he
  have hnodup := h.tracking.nodup
  rw [hsplit] at hnodup
  have hmem : b ∈ s.dirtyBlocks := by
    rw [Array.mem_def, hsplit]
    exact List.mem_append_right _ List.mem_cons_self
  -- no block is listed twice, so the block is not among those before it
  have hout : b ∉ reached (s.blockEvents s.image) k s.dirtyBlocks.toList := fun hin =>
    (List.nodup_append.1 hnodup).2.2 b hin b List.mem_cons_self rfl
  obtain ⟨c, hc, hne⟩ := (h.tracking.mem_dirty b).1 hmem
  refine ⟨b, hmem, heb, ?_, ?_⟩
  · rw [modified_of_getElem? hc]
    exact hne
  · rw [modified_interrupted, if_neg hout]

theorem WellFormed.isUpdate_covers {s : Store ρ τ} (h : s.WellFormed) {e : Event}
    {start stop x : Nat} (he : s.IsUpdate e start stop) (hstop : stop ≤ s.capacity)
    (hlo : start ≤ x) (hhi : x < stop) : e.Covers x := by
  have hcap := h.fits.lt_sizeLimit
  rcases he with rfl | ⟨rfl, rfl⟩
  · exact ⟨start, stop, rfl, hlo, hhi⟩
  · refine ⟨start, start + 1, ?_, hlo, hhi⟩
    rw [Event.slots?, addSize?_eq_some.2 ⟨by omega, rfl⟩]

/-- A changed slot was published, or stays marked as changed. -/
theorem WellFormed.published_or_isDirty {s : Store ρ τ} (h : s.WellFormed) (k : Nat) {x : Nat}
    (hx : s.IsDirty x) :
    (∃ e ∈ s.flushEvents.take k, e.Covers x) ∨ (s.interrupted k).IsDirty x := by
  by_cases hb : x / s.config.blockSize
      ∈ reached (s.blockEvents s.image) k s.dirtyBlocks.toList
  · obtain ⟨e, he, start, stop, hupdate, hlo, hhi, hstop⟩ := h.exists_isUpdate_block hx
    exact .inl ⟨e, mem_take_of_reached hb he, h.isUpdate_covers hupdate hstop hlo hhi⟩
  · refine .inr ?_
    have hconfig : (s.interrupted k).config = s.config := rfl
    rw [IsDirty, hconfig, modified_interrupted, if_neg hb]
    exact hx

/-! ## Stranded blocks -/

/-- A block with changes that is not on the list of dirty blocks. -/
structure Stranded (config : StoreConfig) (b : Nat) (s : Store ρ τ) : Prop where
  config_eq : s.config = config
  sound : ∀ (a : Nat) (c : BlockChanges), s.changes[a]? = some c → c.Sound config.blockSize
  changed : s.modified b ≠ #[]
  unlisted : b ∉ s.dirtyBlocks

/-- Every block that still has changes after a flush was broken off is stranded. -/
theorem WellFormed.stranded_interrupted {s : Store ρ τ} (h : s.WellFormed) {k b : Nat}
    (hb : (s.interrupted k).modified b ≠ #[]) : Stranded s.config b (s.interrupted k) := by
  refine ⟨rfl, fun a c hc => ?_, hb, Array.not_mem_empty b⟩
  rw [interrupted, getElem?_settle] at hc
  obtain ⟨old, hold, rfl⟩ := Option.map_eq_some_iff.1 hc
  have hsound := h.tracking.sound a old hold
  split
  · exact hsound.clear
  · exact hsound

namespace Stranded

variable {config : StoreConfig} {b : Nat} {s s' : Store ρ τ}

omit [Record ρ] in
/-- Only the changes and the list of dirty blocks matter. -/
theorem congr (h : Stranded config b s) (hconfig : s'.config = s.config)
    (hchanges : s'.changes = s.changes) (hdirty : s'.dirtyBlocks = s.dirtyBlocks) :
    Stranded config b s' := by
  refine ⟨hconfig.trans h.config_eq, ?_, ?_, ?_⟩
  · rw [hchanges]
    exact h.sound
  · rw [modified, hchanges]
    exact h.changed
  · rw [hdirty]
    exact h.unlisted

omit [Record ρ] in
/-- A stranded block has changes. -/
theorem exists_changes (h : Stranded config b s) :
    ∃ c, s.changes[b]? = some c ∧ c.modified ≠ #[] := by
  have hne := h.changed
  rw [modified] at hne
  split at hne
  · next c hc => exact ⟨c, hc, hne⟩
  · exact absurd rfl hne

omit [Record ρ] in
/-- A change in a stranded block does not put it on the list: the block has changes already. -/
theorem mark (hv : config.Valid) (h : Stranded config b s) (slot : Nat) :
    Stranded config b (s.mark slot) := by
  obtain ⟨c, hc, hne⟩ := h.exists_changes
  obtain ⟨rfl, hsound, -, hunlisted⟩ := h
  have hpos : 0 < s.config.blockSize := Nat.lt_of_lt_of_le hv.1 hv.2.1
  have hoffset : (UInt16.ofNat (slot % s.config.blockSize)).toNat < s.config.blockSize := by
    rw [toNat_offset hv]
    exact Nat.mod_lt slot hpos
  have hget : ∀ a, (s.mark slot).changes[a]? = if slot / s.config.blockSize = a
      then s.changes[a]?.map (·.mark (UInt16.ofNat (slot % s.config.blockSize)))
      else s.changes[a]? := fun a => Array.getElem?_modify
  refine ⟨rfl, fun a d hd => ?_, ?_, ?_⟩
  · rw [hget] at hd
    split at hd
    · obtain ⟨old, hold, rfl⟩ := Option.map_eq_some_iff.1 hd
      exact (hsound a old hold).mark hoffset
    · exact hsound a d hd
  -- a mark in the stranded block itself finds changes there, and so does not queue it
  · by_cases hblock : slot / s.config.blockSize = b
    · have hmarked : (s.mark slot).changes[b]?
          = some (c.mark (UInt16.ofNat (slot % s.config.blockSize))) := by
        rw [hget, if_pos hblock, hc]
        rfl
      rw [modified_of_getElem? hmarked]
      exact (hsound b c hc).modified_mark_ne hne _
    · have hsame : (s.mark slot).changes[b]? = some c := by
        rw [hget, if_neg hblock, hc]
      rw [modified_of_getElem? hsame]
      exact hne
  · rw [Store.mark]
    dsimp only
    by_cases hdirties : s.dirties (slot / s.config.blockSize)
        (UInt16.ofNat (slot % s.config.blockSize)) = true
    · rw [if_pos hdirties]
      intro hin
      rcases Array.mem_push.1 hin with hin | rfl
      · exact hunlisted hin
      · rw [dirties, hc, Bool.and_eq_true, Array.isEmpty_iff] at hdirties
        exact hne hdirties.1
    · rw [if_neg hdirties]
      exact hunlisted

omit [Record ρ] in
/-- Forgetting the changes of other blocks. -/
theorem settleOther (h : Stranded config b s) {a : Nat} (hab : a ≠ b) :
    Stranded config b ({ s with changes := s.changes.modify a (·.clear) } : Store ρ τ) := by
  obtain ⟨c, hc, hne⟩ := h.exists_changes
  refine ⟨h.config_eq, fun i d hd => ?_, ?_, h.unlisted⟩
  · rw [Array.getElem?_modify] at hd
    split at hd
    · obtain ⟨old, hold, rfl⟩ := Option.map_eq_some_iff.1 hd
      exact (h.sound i old hold).clear
    · exact h.sound i d hd
  · rw [modified, Array.getElem?_modify, if_neg hab, hc]
    exact hne

/-- Growing leaves a stranded block, since blocks that were there keep their marks. -/
theorem grown [Inhabited τ] (h : Stranded config b s) (capacity : Nat) :
    Stranded config b (s.grown capacity) := by
  obtain ⟨c, hc, hne⟩ := h.exists_changes
  have hget : ∀ a : Nat, (s.grown capacity).changes[a]? = (padded s.changes
      (blockCount s.config capacity) (BlockChanges.none s.config.blockSize))[a]? := fun _ => rfl
  refine ⟨h.config_eq, fun a d hd => ?_, ?_, h.unlisted⟩
  · rw [hget, padded, Array.getElem?_append] at hd
    split at hd
    · exact h.sound a d hd
    · rw [Array.getElem?_replicate] at hd
      split at hd
      · cases hd
        rw [h.config_eq]
        exact BlockChanges.sound_none _
      · cases hd
  · rw [modified, hget, padded, Array.getElem?_append_left (Array.getElem?_eq_some_iff.1 hc).1, hc]
    exact hne

/-- The moves of a flush concern other blocks. -/
theorem flushMoves (hv : config.Valid) (h : Stranded config b s) {buffer : Snapshot}
    {m : FlushMove} (hm : m ∈ s.flushMoves buffer) :
    (∃ a, a ≠ b ∧ m = .settle a) ∨
      ∃ e, (∀ x, e.Covers x → x / config.blockSize ≠ b) ∧ m = .publish e := by
  have hpos : 0 < config.blockSize := Nat.lt_of_lt_of_le hv.1 hv.2.1
  obtain ⟨a, ha, hm⟩ := List.mem_flatMap.1 hm
  have hab : a ≠ b := by
    rintro rfl
    exact h.unlisted (Array.mem_def.2 ha)
  rcases List.mem_append.1 hm with hm | hm
  · obtain ⟨e, he, rfl⟩ := List.mem_map.1 hm
    refine .inr ⟨e, fun x hx => ?_, rfl⟩
    -- events of a block cover slots of this block only
    have hblock : x / config.blockSize = a := by
      rw [blockEvents, h.config_eq] at he
      split at he
      · rw [List.mem_singleton] at he
        subst he
        obtain ⟨hlo, hhi⟩ := Event.covers_range hx
        have hlt : x < a * config.blockSize + config.blockSize :=
          Nat.lt_of_lt_of_le hhi (Nat.min_le_left _ _)
        rw [← Nat.succ_mul] at hlt
        exact Nat.div_eq_of_lt_le hlo hlt
      · obtain ⟨o, ho, rfl⟩ := List.mem_map.1 he
        have hlt : o.toNat < config.blockSize := by
          rw [modified] at ho
          split at ho
          · next c hc => exact (h.sound a c hc).lt o (Array.mem_def.2 ho)
          · exact absurd ho List.not_mem_nil
        rw [Event.covers_slot hx, Nat.mul_comm, Nat.mul_add_div hpos, Nat.div_eq_of_lt hlt]
        rfl
    rw [hblock]
    exact hab
  · rw [List.mem_singleton] at hm
    exact .inl ⟨a, hab, hm⟩

end Stranded

/-- A block is stranded, and no event so far tells of it. -/
structure Untold (config : StoreConfig) (b : Nat) (t : Tracked (Store ρ τ)) : Prop where
  stranded : Stranded config b t.value
  silent : ∀ e ∈ t.events, ∀ x, e.Covers x → x / config.blockSize ≠ b

namespace Stranded

variable {config : StoreConfig} {b : Nat} {s : Store ρ τ}

/-- A move of a flush tells nothing of a stranded block. -/
theorem takeMove (hv : config.Valid) (h : Stranded config b s) {buffer : Snapshot} {m : FlushMove}
    (hm : m ∈ s.flushMoves buffer) :
    Edit.Preserves (Untold config b) (takeMove m : Edit Fault (Store ρ τ) Unit) := by
  intro t ht
  rcases h.flushMoves hv hm with ⟨a, hab, rfl⟩ | ⟨e, he, rfl⟩
  · exact ⟨ht.stranded.settleOther hab, ht.silent⟩
  · refine ⟨ht.stranded, fun e' he' => ?_⟩
    rcases Array.mem_push.1 he' with he' | rfl
    · exact ht.silent e' he'
    · exact he

/-- A flush, broken off or not, leaves a stranded block as it is and does not tell of it. -/
theorem flushBy (hv : config.Valid) (h : Stranded config b s)
    {pick : List FlushMove → List FlushMove} (hpick : ∀ moves, ∀ m ∈ pick moves, m ∈ moves) :
    Untold config b ((Store.flushBy pick).after ⟨s, #[]⟩) := by
  have hemptied : Edit.Preserves (Untold config b) (Edit.change ({ · with dirtyBlocks := #[] } :
      Store ρ τ → Store ρ τ) : Edit Fault (Store ρ τ) Unit) := by
    refine .change fun t ht => ⟨?_, ht.silent⟩
    exact ⟨ht.stranded.config_eq, ht.stranded.sound, ht.stranded.changed, Array.not_mem_empty b⟩
  have hstart : Untold config b ⟨s, #[]⟩ := ⟨h, fun e he => absurd he (Array.not_mem_empty e)⟩
  -- the moves are those of `s`, so the first step is taken by hand
  rw [Store.flushBy, Edit.after, Edit.read_bind, ← Edit.after]
  refine (Edit.Preserves.ite (.pure ()) ?_ : Edit.Preserves (Untold config b) _) ⟨s, #[]⟩ hstart
  refine .bind (.ofExcept _) fun buffer => .bind hemptied fun _ => ?_
  exact .forM_mem fun m hm => h.takeMove hv (hpick _ m hm)

/-- A later flush passes a stranded block by. -/
theorem flush (hv : config.Valid) (h : Stranded config b s) :
    Untold config b (Store.flush.after ⟨s, #[]⟩) := by
  have hall : ∀ moves : List FlushMove, ∀ m ∈ id moves, m ∈ moves := fun _ _ hm => hm
  rw [flush_eq_flushBy]
  exact h.flushBy hv hall

end Stranded

/-! ## Every continuation -/

/-- What is tried with a store whose receivers may give up. -/
inductive Attempt (ρ τ : Type)
  /-- An operation that is not broken off. -/
  | operate (o : Operation ρ τ)
  /-- A flush that is broken off at the event of a given number. -/
  | breakOff (k : Nat)

variable [Inhabited τ]

def Attempt.edit : Attempt ρ τ → Edit Fault (Store ρ τ) Unit
  | operate o => o.edit
  | breakOff k => flushUntil k

/-- The store after some attempts, those that fail included. -/
def attempts (s : Store ρ τ) (more : List (Attempt ρ τ)) : Store ρ τ :=
  more.foldl (fun s a => (a.edit.after ⟨s, #[]⟩).value) s

/-- The edit leaves a stranded block stranded. -/
abbrev LeavesStranded (config : StoreConfig) (b : Nat) {α : Type}
    (act : Edit Fault (Store ρ τ) α) : Prop :=
  Edit.Preserves (fun t => Stranded config b t.value) act

section Preservation

variable {config : StoreConfig} {b : Nat}

omit [Inhabited τ] in
theorem leavesStranded_write (slot : Nat) (r : ρ) :
    LeavesStranded config b (write slot r : Edit Fault (Store ρ τ) Unit) := by
  refine .bind .read fun s => .ite (.throw _) ?_
  exact .change fun t ht => ht.congr rfl rfl rfl

theorem leavesStranded_grow (needed : Nat) :
    LeavesStranded config b (grow needed : Edit Fault (Store ρ τ) Unit) := by
  refine .bind .read fun s => .ite (.throw _) ?_
  refine .bind (.change fun t ht => ht.grown _) fun _ => ?_
  refine .bind .read fun s => .bind (.ofExcept _) fun buffer => ?_
  exact fun t ht => ht

theorem leavesStranded_add (count : Nat) :
    LeavesStranded config b (add count : Edit Fault (Store ρ τ) Nat) := by
  have hlen (n first : Nat) : LeavesStranded config b
      (Edit.change ({ · with len := n }) >>= fun _ => pure first : Edit Fault (Store ρ τ) Nat) := by
    refine .bind (.change fun t ht => ht.congr rfl rfl rfl) fun _ => ?_
    exact .pure first
  refine .ite (.throw _) (.bind .read fun s => ?_)
  split
  · refine .bind (.change fun t ht => ht.congr rfl rfl rfl) fun _ => ?_
    exact .pure _
  · split
    · exact .throw _
    · exact .ite (.bind (leavesStranded_grow _) fun _ => hlen _ _) (hlen _ _)

omit [Inhabited τ] in
/-- Writing to slots leaves a block stranded, also writing to its own slots. -/
theorem leavesStranded_set (hv : config.Valid) (slot : Nat) (value : Option ρ) :
    LeavesStranded config b (set slot value : Edit Fault (Store ρ τ) Unit) := by
  have hmark : LeavesStranded config b
      (Edit.change (·.mark slot) : Edit Fault (Store ρ τ) Unit) := .change fun t ht => ht.mark hv slot
  refine .bind .read fun s => .ite (.throw _) ?_
  cases value with
  | some r =>
    refine .bind .read fun s => .ite (.throw _) ?_
    exact .bind (leavesStranded_write slot r) fun _ => hmark
  | none =>
    refine .bind .read fun s => .bind (.ofExcept _) fun r => ?_
    refine .bind (leavesStranded_write slot _) fun _ => .bind ?_ fun _ => hmark
    refine .change fun t ht => ?_
    rw [release]
    split
    · exact ht
    · exact ht.congr rfl rfl rfl

omit [Record ρ] [Inhabited τ] in
theorem leavesStranded_modifyData (slot : Nat) (f : τ → τ) :
    LeavesStranded config b (modifyData slot f : Edit Fault (Store ρ τ) Unit) := by
  refine .bind .read fun s => .ite (.throw _) ?_
  exact .change fun t ht => ht.congr rfl rfl rfl

/-- An attempt leaves a stranded block stranded. -/
theorem Stranded.attempt (hv : config.Valid) {s : Store ρ τ} (h : Stranded config b s)
    (a : Attempt ρ τ) : Stranded config b (a.edit.after ⟨s, #[]⟩).value := by
  cases a with
  | breakOff k => exact (h.flushBy hv fun _ _ => FlushMove.mem_of_mem_before).stranded
  | operate o =>
    cases o with
    | amend slot f => exact leavesStranded_modifyData slot f _ h
    | call c =>
      cases c with
      | add count =>
        rw [Attempt.edit, Operation.edit, Call.edit, Edit.after_discard]
        exact leavesStranded_add count _ h
      | set slot value => exact leavesStranded_set hv slot value _ h
      | flush => exact (h.flush hv).stranded

/-- Whatever is tried afterwards, a stranded block stays stranded. -/
theorem Stranded.attempts (hv : config.Valid) {s : Store ρ τ} (h : Stranded config b s)
    (more : List (Attempt ρ τ)) : Stranded config b (s.attempts more) := by
  induction more generalizing s with
  | nil => exact h
  | cons a more ih => exact ih (h.attempt hv a)

end Preservation

/-- A flush whose event of number `k` is not received publishes the events before it, and keeps the
changes of everything else. But what has changes then is on the list of dirty blocks only if there
was no such event: the block of that event is not on it, and whatever is done with the store, no later
flush tells of a block that was left so. -/
theorem broken_flush_strands_blocks {config : StoreConfig} (hv : config.Valid)
    (ops : List (Operation ρ τ)) (k : Nat) :
    let s := (usage ({ config } : Store ρ τ) ops).current.value
    ∃ s', flushUntil k ⟨s, #[]⟩ = .ok () ⟨s', (s.flushEvents.take k).toArray⟩ ∧
      (∀ x, s.IsDirty x → (∃ e ∈ s.flushEvents.take k, e.Covers x) ∨ s'.IsDirty x) ∧
      ((∀ b, s'.modified b ≠ #[] → b ∈ s'.dirtyBlocks) ↔ s.flushEvents.length ≤ k) ∧
      (∀ e, s.flushEvents[k]? = some e → ∃ b ∈ s.dirtyBlocks,
        e ∈ s.blockEvents s.image b ∧ s.modified b ≠ #[] ∧ s'.modified b = s.modified b) ∧
      ∀ b, s'.modified b ≠ #[] → ∀ more : List (Attempt ρ τ),
        (s'.attempts more).modified b ≠ #[] ∧ b ∉ (s'.attempts more).dirtyBlocks ∧
        ∀ e ∈ (flush.after ⟨s'.attempts more, #[]⟩).events, ∀ x, e.Covers x →
          x / config.blockSize ≠ b := by
  intro s
  have h : s.WellFormed := wellFormed_usage hv ops
  have hconfig : s.config = config := (usage_induction (P := fun s _ => s.config = config) hv rfl
    (fun _ houtcome hs => houtcome.config_eq.trans hs) ops).2
  refine ⟨s.interrupted k, ?_, fun x => h.published_or_isDirty k, ?_, fun e => h.exists_unreached, ?_⟩
  · rw [h.flushUntil_eq, Array.empty_append]
  -- the queue is empty, so all blocks are listed only if none has changes
  · refine ⟨fun hlisted => Nat.le_of_not_lt fun hk => ?_, fun hk b hb => ?_⟩
    · obtain ⟨b, -, -, hne, hkept⟩ := h.exists_unreached (List.getElem?_eq_getElem hk)
      exact Array.not_mem_empty b (hlisted b (hkept ▸ hne))
    · exact absurd (h.modified_interrupted_all hk b) hb
  · intro b hb more
    -- changed and not queued: this is what later calls cannot mend
    have hstranded : Stranded config b (s.interrupted k) := hconfig ▸ h.stranded_interrupted hb
    have hlater := hstranded.attempts hv more
    exact ⟨hlater.changed, hlater.unlisted, (hlater.flush hv).silent⟩

/-- A node is handed out and written. -/
def firstNode : List (Operation NodeRecord Unit) := [.call (.add 1), .call (.set 0 (some default))]

/-- The only event about the node is not received, and its block is stranded. -/
theorem broken_flush_strands_blocks_first :
    ({ blockSize := 2, maxModified := 1 } : StoreConfig).Valid ∧
      ∃ s', flushUntil 0 ⟨(usage { config := { blockSize := 2, maxModified := 1 } }
          firstNode).current.value, #[]⟩ = .ok () ⟨s', #[]⟩ ∧
        ∃ b, s'.modified b ≠ #[] ∧
          ∀ more : List (Attempt NodeRecord Unit), b ∉ (s'.attempts more).dirtyBlocks := by
  have hv : ({ blockSize := 2, maxModified := 1 } : StoreConfig).Valid := by decide
  obtain ⟨s', hflush, -, hlisted, -, hlater⟩ := broken_flush_strands_blocks hv firstNode 0
  have hevents : ¬ (usage { config := { blockSize := 2, maxModified := 1 } }
      firstNode).current.value.flushEvents.length ≤ 0 := by decide +kernel
  refine ⟨hv, s', hflush, ?_⟩
  obtain ⟨b, hb⟩ := Classical.not_forall.1 fun hall => hevents (hlisted.1 hall)
  obtain ⟨hchanged, -⟩ := Classical.not_imp.1 hb
  exact ⟨b, hchanged, fun more => (hlater b hchanged more).2.1⟩

/-- After a flush that was broken off at its first event, the node is written again and published:
its block has changes, but no event is sent. -/
theorem flush_after_broken_flush_is_silent :
    ∃ s : Store NodeRecord Unit, s = attempts { config := { blockSize := 2, maxModified := 1 } }
        (firstNode.map .operate ++ [.breakOff 0, .operate (.call (.set 0 (some default)))]) ∧
      s.modified 0 = #[0] ∧ s.dirtyBlocks = #[] ∧ (flush.after ⟨s, #[]⟩).events = #[] :=
  ⟨_, rfl, by decide +kernel⟩

end Store

end LiveGraph
