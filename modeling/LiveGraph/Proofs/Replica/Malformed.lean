import LiveGraph.Proofs.Replica.Patch

/-!
# Malformed events

An event comes from elsewhere, and any numbers may stand in it. Three kinds of them are more than a
replica can take: a baseline without room, a range that runs backwards to a slot that is there, and
the slot behind the last number. `Replica.Upsets` lists them, and every other event is answered:
carried out, passed over, or refused with nothing changed.
-/

namespace LiveGraph

namespace Replica

/-- The event is one that the replica cannot answer. -/
inductive Upsets (r : Replica) : Event → Prop
  /-- There is no room for so many slots. -/
  | oversized {capacity : Nat} {b : Snapshot} (hrec : b.recordSize = r.recordSize)
      (hsize : arrayLimit ≤ capacity * r.recordSize) : Upsets r (.replaced r.kind capacity b)
  /-- Replica and snapshot have all slots up to the end of the range, but it starts behind its
  end. -/
  | backwards {start stop : Nat} {b : Snapshot} (hrec : b.recordSize = r.recordSize)
      (hstop : stop ≤ r.bytes.size / r.recordSize ∧ stop ≤ b.capacity) (hlt : stop < start) :
      Upsets r (.range r.kind start stop b)
  /-- The range of the slot has no end. -/
  | unnamed {slot : Nat} {b : Snapshot} (h : sizeLimit ≤ slot + 1) :
      Upsets r (.slot r.kind slot b)

/-- The replica is left with the content of a snapshot that it could not give its room. -/
def Stranded (r : Replica) (e : Event) (r' : Replica) : Prop :=
  ∃ capacity b bytes, e = .replaced r.kind capacity b ∧ b.recordSize = r.recordSize ∧
    arrayLimit ≤ capacity * r.recordSize ∧ b.toBytes = .ok bytes ∧ r' = { r with bytes }

/-- What a replica is expected to do with an event, whatever stands in it. -/
structure Safe (r : Replica) (e : Event) : Prop where
  /-- There is an answer. -/
  answers : ∀ f r', apply e r ≠ .error (.fault f) r'
  /-- Whatever fails, changes nothing. -/
  unchanged : ∀ failure r', apply e r = .error failure r' → r' = r
  /-- An update that starts or ends behind the copy is refused for its slots. -/
  reported : ∀ n start stop b, r.capacity = .ok n → b.recordSize = r.recordSize →
    e = .range r.kind start stop b ∨ e = .slot r.kind start b ∧ stop = start + 1 →
    n < start ∨ n < stop → apply e r = .error (.error (.outOfBounds r.kind start stop n)) r

variable {r : Replica} {e : Event}

/-- What upsets a replica has no answer. -/
theorem Upsets.faults (hpos : 0 < r.recordSize) (he : e.Genuine) (h : r.Upsets e) :
    ∃ f r', apply e r = .error (.fault f) r' := by
  cases h with
  | unnamed hnum => exact ⟨_, _, apply_unnamed hnum r _⟩
  | oversized hrec hsize => exact ⟨_, _, apply_oversized hrec (he.sound rfl).toBytes_eq hsize⟩
  | backwards hrec hstop hlt =>
    obtain ⟨f, hf⟩ := copied_backwards hpos hlt _
    exact ⟨f, r, apply_broken (.range _ _ _ _) hrec (capacity_of_pos hpos) hstop hf⟩

/-- What has no answer upsets the replica. Only a baseline without room leaves a trace. -/
theorem upsets_of_fault (hpos : 0 < r.recordSize) (he : e.Genuine) {f : Fault} {r' : Replica}
    (h : apply e r = .error (.fault f) r') : r.Upsets e ∧ (r' = r ∨ r.Stranded e r') := by
  have hout := outcome_apply r e
  rw [h] at hout
  cases hout with
  | unnamed hnum => exact ⟨.unnamed hnum, .inl rfl⟩
  | unreadable _ hread =>
    rw [(he.sound rfl).toBytes_eq] at hread
    cases hread
  | oversized hrec hread hsize =>
    exact ⟨.oversized hrec hsize, .inr ⟨_, _, _, rfl, hrec, hsize, hread, rfl⟩⟩
  | uncounted _ _ hn =>
    rw [capacity_of_pos hpos] at hn
    cases hn
  | broken hupdate hrec hn hin hcopied =>
    obtain ⟨-, rfl⟩ := capacity_eq_ok hn
    have hb := he.sound hupdate.buffer?_eq
    -- what does not run backwards could have been copied
    have hlt : _ < _ := Nat.lt_of_not_le fun hle => by
      rw [copied_eq hb hrec (Nat.div_mul_le_self _ _) hle hin] at hcopied
      cases hcopied
    cases hupdate with
    | range => exact ⟨.backwards hrec hin hlt, .inl rfl⟩
    | slot => omega

/-- What does not upset the replica and starts or ends behind the copy is refused for its slots. -/
theorem apply_of_beyond {n start stop : Nat} {b : Snapshot} (hn : r.capacity = .ok n)
    (hrec : b.recordSize = r.recordSize) (hupdate : e.Updates r.kind start stop b)
    (hbeyond : n < start ∨ n < stop) (h : ¬ r.Upsets e) :
    apply e r = .error (.error (.outOfBounds r.kind start stop n)) r := by
  by_cases hstop : n < stop ∨ b.capacity < stop
  · exact apply_beyond hupdate hrec hn hstop
  · obtain ⟨-, rfl⟩ := capacity_eq_ok hn
    cases hupdate with
    | range => exact absurd (.backwards hrec (by omega) (by omega)) h
    | slot => omega

/-- A replica has an answer to all that does not upset it, and to nothing else. When it fails, with
an answer or without, it is as before, unless it is stranded; and then it did fail. -/
theorem apply_safe_iff (hpos : 0 < r.recordSize) (he : e.Genuine) :
    (r.Safe e ↔ ¬ r.Upsets e) ∧
      (∀ failure r', apply e r = .error failure r' → r' = r ∨ r.Stranded e r') ∧
      ∀ r', r.Stranded e r' → apply e r = .error (.fault .overflow) r' := by
  refine ⟨⟨?_, ?_⟩, ?_, ?_⟩
  · intro hsafe hupsets
    obtain ⟨f, r', hfault⟩ := hupsets.faults hpos he
    exact hsafe.answers f r' hfault
  · intro hcalm
    refine ⟨?_, ?_, ?_⟩
    · intro f r' hfault
      exact hcalm (upsets_of_fault hpos he hfault).1
    · intro failure r' hfail
      cases failure with
      | error err => exact eq_of_refused hfail
      | fault f => exact absurd (upsets_of_fault hpos he hfail).1 hcalm
    · rintro n start stop b hn hrec (rfl | ⟨rfl, rfl⟩) hbeyond
      · exact apply_of_beyond hn hrec (.range _ _ _ _) hbeyond hcalm
      · have hnum : start + 1 < sizeLimit := Nat.lt_of_not_le fun hle => hcalm (.unnamed hle)
        exact apply_of_beyond hn hrec (.slot _ _ hnum) hbeyond hcalm
  · intro failure r' hfail
    cases failure with
    | error err => exact .inl (eq_of_refused hfail)
    | fault f => exact (upsets_of_fault hpos he hfail).2
  · rintro r' ⟨capacity, b, bytes, rfl, hrec, hsize, hread, rfl⟩
    exact apply_oversized hrec hread hsize

/-- A copy of three slots has no answer to the range from 5 to 2, and one to the range from 2 to
5. -/
theorem apply_safe_iff_backwards :
    ∃ (b : Snapshot) (r : Replica), Snapshot.ofBytes 2 #[1, 2, 3, 4, 5, 6] = .ok b ∧
      r = { kind := .node, recordSize := 2, bytes := #[1, 2, 3, 4, 5, 6] } ∧
      ¬ r.Safe (.range .node 5 2 b) ∧ r.Safe (.range .node 2 5 b) := by
  have hb : Snapshot.ofBytes 2 #[1, 2, 3, 4, 5, 6] = .ok ⟨2, 3, 3, #[#[1, 2, 3, 4, 5, 6]]⟩ := rfl
  have hgenuine : ∀ start stop,
      (Event.range .node start stop ⟨2, 3, 3, #[#[1, 2, 3, 4, 5, 6]]⟩).Genuine := by
    rintro start stop _ ⟨⟩
    exact ⟨_, .bytes hb⟩
  refine ⟨_, _, hb, rfl, ?_, ?_⟩
  · rw [(apply_safe_iff (show 0 < 2 by decide) (hgenuine 5 2)).1]
    intro hcalm
    exact hcalm (.backwards rfl (by decide) (by decide))
  · rw [(apply_safe_iff (show 0 < 2 by decide) (hgenuine 2 5)).1]
    intro hupsets
    cases hupsets with
    | backwards _ _ hlt => exact absurd hlt (by decide)

/-- After a baseline of three slots, a range that starts at slot 5 and ends at slot 2 is not reported
but a fault. -/
theorem backwards_unreported :
    ∃ (b : Snapshot) (r : Replica), Snapshot.ofBytes 2 #[1, 2, 3, 4, 5, 6] = .ok b ∧
      r = follow { kind := .node, recordSize := 2 } (.replaced .node 3 b) ∧ r.capacity = .ok 3 ∧
      apply (.range .node 5 2 b) r = .error (.fault .outOfRange) r ∧
      ∀ err r', apply (.range .node 5 2 b) r ≠ .error (.error err) r' := by
  have hb : Snapshot.ofBytes 2 #[1, 2, 3, 4, 5, 6] = .ok ⟨2, 3, 3, #[#[1, 2, 3, 4, 5, 6]]⟩ := rfl
  have hfault : apply (.range .node 5 2 ⟨2, 3, 3, #[#[1, 2, 3, 4, 5, 6]]⟩)
      ⟨.node, 2, #[1, 2, 3, 4, 5, 6]⟩ = .error (.fault .outOfRange) ⟨.node, 2, #[1, 2, 3, 4, 5, 6]⟩ :=
    rfl
  refine ⟨_, ⟨.node, 2, #[1, 2, 3, 4, 5, 6]⟩, hb, rfl, rfl, hfault, ?_⟩
  intro err r' h
  rw [hfault] at h
  cases h

end Replica

end LiveGraph
