import LiveGraph.Proofs.Store.History

/-!
# Replicas that attach late

A replica need not have followed a store from the start. A replaced array gives it a new base:
whatever it held before, and whichever events it missed, it accepts all that comes from then on, and
after a flush it holds the whole array. What it held before leaves no trace. Until it gets a base, an
empty replica refuses every update.
-/

namespace LiveGraph

namespace Store

variable {ρ τ : Type} [Record ρ]

/-! ## A new base -/

/-- The events lead all replicas of the right kind and width to one and the same, whatever they hold. -/
def Leads (ρ : Type) [Record ρ] (events : List Event) (r : Replica) : Prop :=
  ∀ r₀ : Replica, r₀.kind = Record.kind ρ → r₀.recordSize = Record.size ρ → r₀.Follows events r

theorem Leads.append {events new : List Event} {r r' : Replica} (h : Leads ρ events r)
    (hnew : r.Follows new r') : Leads ρ (events ++ new) r' :=
  fun r₀ hkind hrec => (h r₀ hkind hrec).append hnew

/-- The array of a store replaces whatever a replica held. -/
theorem WellFormed.leads_replaced {s : Store ρ τ} (h : s.WellFormed) :
    ∃ r, Leads ρ [.replaced (Record.kind ρ) s.capacity s.image] r ∧ s.Agrees r := by
  have hagrees := agrees_window (s := s) (r := freshReplica ρ) rfl rfl
  refine ⟨_, ?_, hagrees⟩
  -- of the old replica only its kind and width are left in the new one
  rintro ⟨kind, recordSize, bytes⟩ rfl rfl
  exact .cons (Replica.apply_replaced (r := ⟨Record.kind ρ, Record.size ρ, bytes⟩) h.sound_image rfl
    h.fits.bytes_lt) (.nil _)

variable [Inhabited τ]

/-- A step that replaces the array gives every replica the array of the store behind it, and publishes
nothing after that. -/
theorem Step.leads {s s' : Store ρ τ} {new before after : List Event} {k : Kind} {capacity : Nat}
    {buffer : Snapshot} (hs : Step s new s') (h : s.WellFormed)
    (hnew : new = before ++ .replaced k capacity buffer :: after) :
    ∃ r, Leads ρ (.replaced k capacity buffer :: after) r ∧ s'.Agrees r := by
  have hmem : Event.replaced k capacity buffer ∈ new := by
    rw [hnew]
    exact List.mem_append_right _ List.mem_cons_self
  cases hs with
  | @grow len grown hlen hcap hroom hfits =>
    obtain ⟨rfl, hone⟩ : before = [] ∧ [] = after := by
      cases before with
      | nil =>
        rw [List.nil_append, List.cons.injEq] at hnew
        exact ⟨rfl, hnew.2⟩
      | cons e before => simp at hnew
    subst hone
    cases hnew
    obtain ⟨r, hleads, ha⟩ := (h.grown hcap hfits).leads_replaced
    exact ⟨r, hleads, ha.kind, ha.recordSize, ha.size_bytes, ha.byte⟩
  | flush =>
    obtain ⟨start, stop, hup, -⟩ := h.isUpdate_of_mem hmem
    rcases hup with heq | ⟨heq, -⟩
    · cases heq
    · cases heq
  | _ => exact absurd hmem List.not_mem_nil

/-- From each replaced array on, what was published leads replicas to one that has kept up. -/
def Rebased (t : Tracked (Store ρ τ)) : Prop :=
  ∀ before k capacity buffer after,
    t.events.toList = before ++ .replaced k capacity buffer :: after →
      ∃ r, Leads ρ (.replaced k capacity buffer :: after) r ∧ t.value.Agrees r

/-- Each step extends what every replica sees after a new base. -/
theorem Rebased.step {t : Tracked (Store ρ τ)} {s' : Store ρ τ} {new : List Event} (ht : Rebased t)
    (h : t.value.WellFormed) (hs : Step t.value new s') : Rebased ⟨s', t.events ++ new.toArray⟩ := by
  intro before k capacity buffer after hsplit
  rw [Array.toList_append, List.append_eq_append_iff] at hsplit
  -- the array was replaced by this step, or before it
  rcases hsplit with ⟨middle, -, hnew⟩ | ⟨middle, hold, hnew⟩
  · exact hs.leads h hnew
  · cases middle with
    | nil =>
      have hfirst : new = [] ++ .replaced k capacity buffer :: after := hnew.symm
      exact hs.leads h hfirst
    | cons e middle =>
      rw [List.cons_append, List.cons.injEq] at hnew
      obtain ⟨rfl, rfl⟩ := hnew
      obtain ⟨r, hleads, ha⟩ := ht before k capacity buffer middle hold
      obtain ⟨r', hfollows, ha'⟩ := hs.agrees h ha
      exact ⟨r', hleads.append hfollows, ha'⟩

/-! ## No base yet -/

/-- The event replaces the array, or an empty replica refuses it and stays empty. -/
def RefusedUnbased (ρ : Type) [Record ρ] (e : Event) : Prop :=
  (∃ k capacity buffer, e = .replaced k capacity buffer) ∨
    ∃ start stop, e.slots? = .ok (some (start, stop)) ∧
      Replica.apply e (freshReplica ρ)
        = .error (.error (.outOfBounds (Record.kind ρ) start stop 0)) (freshReplica ρ)

omit [Inhabited τ] in
/-- An empty replica has none of the slots that a flush updates. -/
theorem WellFormed.refused_of_mem {s : Store ρ τ} (h : s.WellFormed) {e : Event}
    (he : e ∈ s.flushEvents) : RefusedUnbased ρ e := by
  obtain ⟨start, stop, hup, hlt, hcap⟩ := h.isUpdate_of_mem he
  have hempty : (freshReplica ρ).bytes.size = 0 * (freshReplica ρ).recordSize := (Nat.zero_mul _).symm
  have hpos : 0 < (freshReplica ρ).recordSize := Record.size_pos
  refine .inr ⟨start, stop, ?_⟩
  rcases hup with rfl | ⟨rfl, rfl⟩
  · exact ⟨rfl, Replica.apply_range_beyond rfl hpos hempty (Nat.zero_lt_of_lt hlt)⟩
  · have hnum : start + 1 < sizeLimit := Nat.lt_of_le_of_lt hcap h.fits.lt_sizeLimit
    exact ⟨(Event.Updates.slot _ _ hnum).slots?_eq,
      Replica.apply_slot_beyond rfl hpos hempty hnum (Nat.zero_le start)⟩

/-- A replica without a base refuses all but a new base. -/
theorem Step.refused {s s' : Store ρ τ} {new : List Event} (hs : Step s new s') (h : s.WellFormed) :
    ∀ e ∈ new, RefusedUnbased ρ e := by
  intro e he
  cases hs with
  | grow _ _ _ _ => exact .inl ⟨_, _, _, List.mem_singleton.1 he⟩
  | flush => exact h.refused_of_mem he
  | _ => exact absurd he List.not_mem_nil

/-- Updates that are all refused leave an empty replica empty. -/
theorem foldl_follow_refused {events : List Event} (h : ∀ e ∈ events, RefusedUnbased ρ e)
    (hupdates : ∀ e ∈ events, ∀ k capacity buffer, e ≠ .replaced k capacity buffer) :
    events.foldl Replica.follow (freshReplica ρ) = freshReplica ρ := by
  induction events with
  | nil => rfl
  | cons e events ih =>
    obtain ⟨start, stop, -, happly⟩ := (h e List.mem_cons_self).resolve_left fun ⟨k, c, b, heq⟩ =>
      hupdates e List.mem_cons_self k c b heq
    rw [List.foldl_cons, Replica.follow, happly]
    exact ih (fun e he => h e (List.mem_cons_of_mem _ he))
      fun e he => hupdates e (List.mem_cons_of_mem _ he)

/-! ## Runs -/

/-- What a replica can rely on that does not follow a run from its start. -/
structure Attachable (s₀ : Store ρ τ) (ops : List (Operation ρ τ)) : Prop where
  /-- From a replaced array on, every event is accepted; all replicas of the right kind and width become
  the same `r`, which has as many slots as the store and after a flush the bytes of the whole array. -/
  rebased : ∀ before k capacity buffer after,
    (usage s₀ ops).current.events.toList = before ++ .replaced k capacity buffer :: after →
      ∃ r, (∀ r₀ : Replica, r₀.kind = Record.kind ρ → r₀.recordSize = Record.size ρ →
          r₀.Follows (.replaced k capacity buffer :: after) r) ∧
        r.capacity = .ok (usage s₀ ops).current.value.capacity ∧
        ∀ earlier, ops = earlier ++ [.call .flush] →
          ∃ b, (usage s₀ ops).current.value.snapshot = .ok b ∧ b.toBytes = .ok r.bytes
  /-- Before it sees a replaced array, an empty replica refuses every update, for it has none of the
  slots, and stays empty. -/
  unbased : ∀ before skipped after,
    (usage s₀ ops).current.events.toList = before ++ skipped ++ after →
      (∀ e ∈ skipped, ∀ k capacity buffer, e ≠ .replaced k capacity buffer) →
      (∀ e ∈ skipped, ∃ start stop, e.slots? = .ok (some (start, stop)) ∧
        Replica.apply e (freshReplica ρ)
          = .error (.error (.outOfBounds (Record.kind ρ) start stop 0)) (freshReplica ρ)) ∧
      skipped.foldl Replica.follow (freshReplica ρ) = freshReplica ρ

/-- Right after a flush no slot has pending changes. -/
theorem not_isDirty_usage_flush {s : Store ρ τ} {ops : List (Operation ρ τ)}
    (h : (usage s ops).current.value.WellFormed) (x : Nat) :
    ¬ (usage s (ops ++ [.call .flush])).current.value.IsDirty x := by
  have hafter : (usage s (ops ++ [.call .flush])).current.value
      = (usage s ops).current.value.flushed := by
    rw [usage_concat]
    exact congrArg Tracked.value (Edit.after_of_ok (h.flush_eq _))
  rw [hafter]
  exact h.not_isDirty_flushed x

/-- Whatever is done with an empty store, replicas can attach to it at any time. -/
theorem late_replica_converges {config : StoreConfig} (hv : config.Valid)
    (ops : List (Operation ρ τ)) :
    ∃ s₀ : Store ρ τ, Store.new config = .ok s₀ ∧ Attachable s₀ ops := by
  have hnew : (Store.new config : Except Fault (Store ρ τ)) = .ok { config } :=
    new_eq_ok_iff.2 ⟨hv, rfl⟩
  have hrun := current_induction (ρ := ρ) (τ := τ)
    (P := fun t => Rebased t ∧ ∀ e ∈ t.events.toList, RefusedUnbased ρ e) hv
    ⟨by intro before k c b after hsplit; simp at hsplit, by simp⟩
    (fun h hs ht => ⟨ht.1.step h hs, fun e he => by
      rw [Array.toList_append, List.mem_append] at he
      exact he.elim (ht.2 e) (hs.refused h e)⟩)
  obtain ⟨h, hrebased, hrefused⟩ := hrun ops
  refine ⟨{ config }, hnew, fun before k c b after hsplit => ?_,
    fun before skipped after hsplit hne => ?_⟩
  · obtain ⟨r, hleads, ha⟩ := hrebased before k c b after hsplit
    refine ⟨r, hleads, ha.capacity_eq, fun earlier hflush => ⟨_, h.snapshot_eq, ?_⟩⟩
    have hclean : ∀ x, ¬ (usage ({ config } : Store ρ τ) ops).current.value.IsDirty x := by
      rw [hflush]
      exact not_isDirty_usage_flush (hrun earlier).1
    rw [h.sound_image.toBytes_eq, ha.bytes_eq hclean]
    rfl
  · have hskipped : ∀ e ∈ skipped, RefusedUnbased ρ e := by
      intro e he
      apply hrefused
      rw [hsplit]
      exact List.mem_append_left _ (List.mem_append_right _ he)
    refine ⟨fun e he => ?_, foldl_follow_refused hskipped hne⟩
    exact (hskipped e he).resolve_left fun ⟨k, c, b, heq⟩ => hne e he k c b heq

/-- The array grows while a write is pending, and a second one follows before the flush. -/
def regrown : List (Operation NodeRecord Unit) :=
  [.call (.add 1), .call (.set 0 (some { (default : NodeRecord) with flags := highlightedFlag })),
   .call (.add 2), .call (.set 1 none), .call .flush]

/-- Replicas that missed the first array are based on the second one; the flush alone is refused. -/
theorem late_replica_converges_regrown :
    ∃ s₀ : Store NodeRecord Unit, Store.new { blockSize := 2, maxModified := 2 } = .ok s₀ ∧
      ∃ first second last, (usage s₀ regrown).current.events.toList
          = [.replaced .node 1 first, .replaced .node 4 second, .range .node 0 2 last] ∧
        (∃ r, (∀ r₀ : Replica, r₀.kind = .node → r₀.recordSize = 16 →
            r₀.Follows [.replaced .node 4 second, .range .node 0 2 last] r) ∧
          ∃ b, (usage s₀ regrown).current.value.snapshot = .ok b ∧ b.toBytes = .ok r.bytes) ∧
        Replica.apply (.range .node 0 2 last) (freshReplica NodeRecord)
          = .error (.error (.outOfBounds .node 0 2 0)) (freshReplica NodeRecord) := by
  have hv : ({ blockSize := 2, maxModified := 2 } : StoreConfig).Valid := by decide
  obtain ⟨s₀, hnew, hrebased, hunbased⟩ :=
    late_replica_converges (ρ := NodeRecord) (τ := Unit) hv regrown
  obtain ⟨-, rfl⟩ := new_eq_ok_iff.1 hnew
  -- slot 0 is written as highlighted, slot 1 is deleted
  have hevents : (usage ({ config := { blockSize := 2, maxModified := 2 } } : Store NodeRecord Unit)
      regrown).current.events.toList
      = [.replaced .node 1 ⟨16, 2, 1, #[Array.replicate 16 0]⟩,
         .replaced .node 4 ⟨16, 2, 4, #[Array.replicate 15 0 ++ #[1] ++ Array.replicate 16 0,
           Array.replicate 32 0]⟩,
         .range .node 0 2 ⟨16, 2, 4, #[Array.replicate 15 0 ++ #[1] ++ Array.replicate 15 0 ++ #[2],
           Array.replicate 32 0]⟩] := by
    decide +kernel
  refine ⟨_, hnew, _, _, _, hevents, ?_, ?_⟩
  · obtain ⟨r, hleads, -, hflushed⟩ := hrebased [_] _ _ _ _ hevents
    exact ⟨r, hleads, hflushed [_, _, _, _] rfl⟩
  · obtain ⟨hrefused, -⟩ := hunbased [_, _] [_] [] hevents (by simp)
    obtain ⟨start, stop, hslots, happly⟩ := hrefused _ (List.mem_singleton_self _)
    cases hslots
    exact happly

end Store

end LiveGraph
