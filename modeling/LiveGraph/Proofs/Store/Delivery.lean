import LiveGraph.Proofs.Store.History

/-!
# Batches out of order

The events of one flush all carry the same snapshot, and each of them brings some slots to what the
snapshot holds. So it does not matter in which order a consumer gets them, nor how often: once it has
seen each of them, its replica is the one that it would have got from the batch as it was published.
-/

namespace LiveGraph

namespace Store

variable {ρ τ : Type} [Record ρ]

/-- There is one replica of a store without pending changes. -/
theorem Agrees.eq_of_clean {s : Store ρ τ} {r r' : Replica} (h : s.Agrees r) (h' : s.Agrees r')
    (hclean : ∀ x, ¬ s.IsDirty x) : r = r' := by
  have hkind : r.kind = r'.kind := h.kind.trans h'.kind.symm
  have hsize : r.recordSize = r'.recordSize := h.recordSize.trans h'.recordSize.symm
  have hbytes : r.bytes = r'.bytes := (h.bytes_eq hclean).trans (h'.bytes_eq hclean).symm
  cases r
  cases r'
  simp_all

/-- Whatever order and repetitions a batch arrives with, it leads to the same replica. -/
theorem Agrees.delivered_unique {s : Store ρ τ} {r : Replica} (ha : s.Agrees r) (h : s.WellFormed) :
    ∃ r', s.flushed.Agrees r' ∧
      ∀ es : List Event, (∀ e, e ∈ es ↔ e ∈ s.flushEvents) → r.Follows es r' := by
  obtain ⟨r', -, ha'⟩ := ha.delivered h fun _ => .rfl
  refine ⟨r', ha', fun es hes => ?_⟩
  obtain ⟨r'', hfollows, ha''⟩ := ha.delivered h hes
  rw [ha'.eq_of_clean ha'' h.not_isDirty_flushed]
  exact hfollows

variable [Inhabited τ]

/-- At every point of every run of an empty store, a replica that followed from the start agrees. -/
theorem agrees_usage {config : StoreConfig} (hv : config.Valid) (ops : List (Operation ρ τ)) :
    (usage ({ config } : Store ρ τ) ops).current.value.WellFormed ∧
      ∃ r, (freshReplica ρ).Follows (usage ({ config } : Store ρ τ) ops).current.events.toList r ∧
        (usage ({ config } : Store ρ τ) ops).current.value.Agrees r := by
  apply current_induction (P := fun t => ∃ r, (freshReplica ρ).Follows t.events.toList r ∧
    t.value.Agrees r) hv
  · exact ⟨_, .nil _, agrees_empty config⟩
  · rintro t s' new h hstep ⟨r, hfollows, ha⟩
    obtain ⟨r', hnew, ha'⟩ := hstep.agrees h ha
    refine ⟨r', ?_, ha'⟩
    rw [Array.toList_append]
    exact hfollows.append hnew

/-- Whatever was done with an empty store, a replica that has applied all events so far can get the next
batch in any order and with any repetitions: it accepts event after event, and ends with the bytes of the
whole array. -/
theorem batch_applies_in_any_order {config : StoreConfig} (hv : config.Valid)
    (ops : List (Operation ρ τ)) :
    ∃ s₀ : Store ρ τ, Store.new config = .ok s₀ ∧
      ∃ (r r' : Replica) (batch : List Event) (s' : Store ρ τ) (buffer : Snapshot),
        (freshReplica ρ).Follows (usage s₀ ops).current.events.toList r ∧
        flush (usage s₀ ops).current
          = .ok () ⟨s', (usage s₀ ops).current.events ++ batch.toArray⟩ ∧
        s'.snapshot = .ok buffer ∧ buffer.toBytes = .ok r'.bytes ∧
        ∀ es : List Event, (∀ e, e ∈ es ↔ e ∈ batch) → r.Follows es r' := by
  have hnew : (Store.new config : Except Fault (Store ρ τ)) = .ok { config } :=
    new_eq_ok_iff.2 ⟨hv, rfl⟩
  obtain ⟨h, r, hfollows, ha⟩ := agrees_usage (ρ := ρ) (τ := τ) hv ops
  obtain ⟨r', ha', hbatch⟩ := ha.delivered_unique h
  refine ⟨{ config }, hnew, r, r', _, _, _, hfollows, h.flush_eq _, h.flushed.snapshot_eq, ?_, hbatch⟩
  rw [h.flushed.sound_image.toBytes_eq, ha'.bytes_eq h.not_isDirty_flushed]
  rfl

/-- One slot of the first block is written, and both of the second. -/
def scattered : List (Operation NodeRecord Unit) :=
  [.call (.add 4), .call (.set 0 (some default)), .call (.set 3 (some default)), .call (.set 2 none)]

/-- The content of the array with these slots. -/
def scatteredImage : Snapshot :=
  ⟨16, 2, 4, #[Array.replicate 32 0, Array.replicate 15 0 ++ #[2] ++ Array.replicate 16 0]⟩

/-- The second block arrives twice, with the slot of the first block in between. -/
theorem batch_applies_in_any_order_scattered :
    ∃ s₀ : Store NodeRecord Unit, Store.new { blockSize := 2, maxModified := 2 } = .ok s₀ ∧
      ∃ (r r' : Replica) (s' : Store NodeRecord Unit),
        (freshReplica NodeRecord).Follows (usage s₀ scattered).current.events.toList r ∧
        flush (usage s₀ scattered).current = .ok () ⟨s', (usage s₀ scattered).current.events
          ++ #[.slot .node 0 scatteredImage, .range .node 2 4 scatteredImage]⟩ ∧
        s'.snapshot = .ok scatteredImage ∧ scatteredImage.toBytes = .ok r'.bytes ∧
        r.Follows [.range .node 2 4 scatteredImage, .slot .node 0 scatteredImage,
          .range .node 2 4 scatteredImage] r' := by
  have hv : ({ blockSize := 2, maxModified := 2 } : StoreConfig).Valid := by decide
  obtain ⟨s₀, hnew, r, r', batch, s', buffer, hfollows, hflush, hsnap, hbytes, hany⟩ :=
    batch_applies_in_any_order (ρ := NodeRecord) (τ := Unit) hv scattered
  obtain ⟨-, rfl⟩ := new_eq_ok_iff.1 hnew
  -- the flush and its events can be computed
  have hrun : ∀ t t', (usage ({ config := { blockSize := 2, maxModified := 2 } } :
        Store NodeRecord Unit) scattered).current = t → Edit.after flush t = t' →
      t'.value.snapshot.toOption = some scatteredImage ∧ t'.events.toList.drop t.events.size
        = [.slot .node 0 scatteredImage, .range .node 2 4 scatteredImage] := by
    rintro t t' rfl rfl
    decide +kernel
  obtain ⟨himage, hevents⟩ := hrun _ _ rfl (Edit.after_of_ok hflush)
  have hbuffer : buffer = scatteredImage := by
    rw [hsnap] at himage
    exact Option.some.inj himage
  rw [Array.toList_append, ← Array.length_toList, List.drop_left] at hevents
  subst hbuffer hevents
  exact ⟨_, hnew, r, r', s', hfollows, hflush, hsnap, hbytes, hany _ (by simp)⟩

end Store

end LiveGraph
