import LiveGraph.Proofs.Graph.Change

/-!
# Who is in a slot

One slot can hold many nodes, one after the other. A node leaves when it is removed and comes when it is
added, and with every node that comes the slot starts a new generation. So as long as the generations
have not gone once around, a slot that is live with the generation of an earlier time still holds the
node of that time.
-/

namespace LiveGraph

namespace GraphData

/-- The call takes the node out of the slot. -/
def Call.vacates (slot : Nat) (t : Tracked GraphData) : Call → Bool
  | removeNode x => x == slot && ((GraphData.removeNode x).answer? t).isSome
  | _ => false

/-- The call puts a new node into the slot. -/
def Call.fills (slot : Nat) (t : Tracked GraphData) : Call → Bool
  | addNode r => (GraphData.addNode r).answer? t == some slot
  | _ => false

/-- One of the calls takes the node out of the slot. -/
def vacated (slot : Nat) (t : Tracked GraphData) : List Call → Bool
  | [] => false
  | c :: calls => c.vacates slot t || vacated slot (c.edit.after t) calls

/-- How many of the calls put a new node into the slot. -/
def fillings (slot : Nat) (t : Tracked GraphData) : List Call → Nat
  | [] => 0
  | c :: calls => (c.fills slot t).toNat + fillings slot (c.edit.after t) calls

variable {slot : Nat} {t : Tracked GraphData}

/-- A slot is vacated by two lists of calls if it is by one of them. -/
theorem vacated_append (calls more : List Call) :
    vacated slot t (calls ++ more) = (vacated slot t calls || vacated slot (resume t calls) more) := by
  induction calls generalizing t with
  | nil => rfl
  | cons c calls ih =>
    rw [List.cons_append, vacated, vacated, ih, Bool.or_assoc]
    rfl

/-- Fillings of a slot add up. -/
theorem fillings_append (calls more : List Call) :
    fillings slot t (calls ++ more) = fillings slot t calls + fillings slot (resume t calls) more := by
  induction calls generalizing t with
  | nil => exact (Nat.zero_add _).symm
  | cons c calls ih =>
    rw [List.cons_append, fillings, fillings, ih, Nat.add_assoc]
    rfl

/-! ## One call -/

/-- What a call means for the node in a slot. -/
structure Tenancy (slot : Nat) (t : Tracked GraphData) (c : Call) (d : GraphData) : Prop where
  /-- A node only comes into a slot that is not live. -/
  vacant : c.fills slot t = true → t.value.nodes.isLive slot = false
  /-- A node is in the slot if it came now, or was there and has not left. -/
  live : d.nodes.isLive slot = true ↔
    c.fills slot t = true ∨ t.value.nodes.isLive slot = true ∧ c.vacates slot t = false
  /-- The generation goes up when a node comes. -/
  generation : (d.nodes.dataAt slot).generation
    = (t.value.nodes.dataAt slot).generation + UInt64.ofNat (c.fills slot t).toNat

/-- The call neither brings a node nor takes one away. -/
theorem Tenancy.of_same {c : Call} {d : GraphData} (hfills : c.fills slot t = false)
    (hvacates : c.vacates slot t = false)
    (hlive : d.nodes.isLive slot = t.value.nodes.isLive slot)
    (hgeneration : (d.nodes.dataAt slot).generation = (t.value.nodes.dataAt slot).generation) :
    Tenancy slot t c d := by
  refine ⟨?_, ?_, ?_⟩
  · rw [hfills]
    intro h
    cases h
  · rw [hlive, hfills, hvacates]
    simp
  · rw [hgeneration, hfills]
    exact (UInt64.add_zero _).symm

/-- No node comes where one is. -/
theorem Tenancy.fills_of_live {c : Call} {d : GraphData} (h : Tenancy slot t c d)
    (hlive : t.value.nodes.isLive slot = true) : c.fills slot t = false := by
  rw [← Bool.not_eq_true]
  intro hfills
  rw [h.vacant hfills] at hlive
  cases hlive

/-- A refused call fills no slot. -/
theorem Call.fills_of_refused {c : Call} (h : c.edit.answer? t = none) : c.fills slot t = false := by
  cases c with
  | addNode r =>
    rw [edit, Edit.answer?_discard, Option.map_eq_none_iff] at h
    rw [fills, h]
    rfl
  | _ => rfl

theorem Call.vacates_of_refused {c : Call} (h : c.edit.answer? t = none) :
    c.vacates slot t = false := by
  cases c with
  | removeNode x =>
    rw [edit] at h
    rw [vacates, h]
    exact Bool.and_false _
  | _ => rfl

theorem Call.fills_of_redraws {c : Call} (h : c.redraws = true) : c.fills slot t = false := by
  cases c with
  | addNode r => cases h
  | _ => rfl

theorem Call.vacates_of_redraws {c : Call} (h : c.redraws = true) : c.vacates slot t = false := by
  cases c with
  | removeNode x => cases h
  | _ => rfl

/-- What any change means for one slot: it is filled, vacated or left alone. -/
theorem Change.tenancy {c : Call} {d : GraphData} (hc : Change t c d) : Tenancy slot t c d := by
  cases hc with
  | refused hnone =>
    exact .of_same (Call.fills_of_refused hnone) (Call.vacates_of_refused hnone) rfl rfl
  | redrawn hredraws hnodes _ =>
    refine .of_same (Call.fills_of_redraws hredraws) (Call.vacates_of_redraws hredraws) ?_ ?_
    · exact hnodes.live slot
    · exact congrArg NodeData.generation (hnodes.data slot)
  -- a new node fills its own slot, which was not live, and counts this
  | @nodeAdded r x nodes hanswer hins =>
    have hfills : (Call.addNode r).fills slot t = (x == slot) := by
      rw [Call.fills, hanswer]
      rfl
    refine ⟨?_, ?_, ?_⟩
    · rw [hfills, beq_iff_eq]
      rintro rfl
      exact hins.dead
    · have hvacates : (Call.addNode r).vacates slot t = false := rfl
      rw [hfills, hvacates, beq_iff_eq, eq_comm (a := x)]
      exact (hins.live slot).trans (or_congr_right (and_iff_left rfl).symm)
    · show (nodes.dataAt slot).generation = _
      rw [hins.data, hfills]
      by_cases hx : slot = x
      · rw [if_pos hx, hx, beq_self_eq_true]
        rfl
      · rw [if_neg hx, beq_false_of_ne (Ne.symm hx)]
        exact (UInt64.add_zero _).symm
  | edgeAdded _ _ hkept => exact .of_same rfl rfl (hkept.live slot) (hkept.generation slot)
  | edgeRemoved hdropped =>
    exact .of_same rfl rfl (hdropped.nodes.live slot) (hdropped.nodes.generation slot)
  -- the edges go first, which concerns no slot of nodes
  | @nodeRemoved x d₁ nodes hanswer _ hdropped herased =>
    have hfills : (Call.removeNode x).fills slot t = false := rfl
    have hvacates : (Call.removeNode x).vacates slot t = (x == slot) := by
      rw [Call.vacates, hanswer]
      exact Bool.and_true _
    refine ⟨?_, ?_, ?_⟩
    · rw [hfills]
      intro h
      cases h
    · show nodes.isLive slot = true ↔ _
      rw [herased.live, hdropped.nodes.live, hfills, hvacates, List.mem_singleton, beq_eq_false_iff_ne,
        eq_comm (a := slot)]
      simp
    · show (nodes.dataAt slot).generation = _
      rw [herased.data, hdropped.nodes.generation, hfills]
      exact (UInt64.add_zero _).symm
  | @attributed k _ _ _ =>
    cases k with
    | node => exact .of_same rfl rfl rfl rfl
    | edge => exact .of_same rfl rfl rfl rfl

/-! ## Many calls -/

section

variable (h : t.value.Consistent) {calls : List Call}

include h

theorem Consistent.tenancy (slot : Nat) (c : Call) : Tenancy slot t c (c.edit.after t).value :=
  (h.change c).tenancy

/-- Each node that comes starts a generation. -/
theorem Consistent.generation_resume (slot : Nat) (calls : List Call) :
    ((GraphData.resume t calls).value.nodes.dataAt slot).generation
      = (t.value.nodes.dataAt slot).generation + UInt64.ofNat (fillings slot t calls) := by
  induction calls generalizing t with
  | nil => exact (UInt64.add_zero _).symm
  | cons c calls ih =>
    rw [resume_cons, ih (h.call c), (h.tenancy slot c).generation, UInt64.add_assoc,
      ← UInt64.ofNat_add]
    rfl

/-- A node that was not there at first has come. -/
theorem Consistent.filled_of_vacant (hdead : t.value.nodes.isLive slot = false)
    (hlive : (GraphData.resume t calls).value.nodes.isLive slot = true) : 0 < fillings slot t calls := by
  induction calls generalizing t with
  | nil =>
    rw [GraphData.resume, List.foldl_nil, hdead] at hlive
    cases hlive
  | cons c calls ih =>
    unfold fillings
    cases hfills : c.fills slot t with
    | true =>
      rw [Bool.toNat_true]
      omega
    | false =>
      have hstill : (c.edit.after t).value.nodes.isLive slot = false := by
        rw [← Bool.not_eq_true, (h.tenancy slot c).live, hfills, hdead]
        simp
      have hrest := ih (h.call c) hstill hlive
      omega

/-- A node that has not left is still there, and no other has come. -/
theorem Consistent.stays (hlive : t.value.nodes.isLive slot = true)
    (hstays : vacated slot t calls = false) :
    (GraphData.resume t calls).value.nodes.isLive slot = true ∧ fillings slot t calls = 0 := by
  induction calls generalizing t with
  | nil => exact ⟨hlive, rfl⟩
  | cons c calls ih =>
    unfold vacated at hstays
    obtain ⟨hvacates, hrest⟩ := Bool.or_eq_false_iff.1 hstays
    have hfills := (h.tenancy slot c).fills_of_live hlive
    have hnext := (h.tenancy slot c).live.2 (.inr ⟨hlive, hvacates⟩)
    obtain ⟨hend, hnone⟩ := ih (h.call c) hnext hrest
    refine ⟨hend, ?_⟩
    rw [fillings, hfills, hnone]
    rfl

/-- Once the node has left, the slot is live only if another one has come. -/
theorem Consistent.filled_of_vacated (hlive : t.value.nodes.isLive slot = true)
    (hleft : vacated slot t calls = true)
    (hend : (GraphData.resume t calls).value.nodes.isLive slot = true) : 0 < fillings slot t calls := by
  induction calls generalizing t with
  | nil => cases hleft
  | cons c calls ih =>
    have hfills := (h.tenancy slot c).fills_of_live hlive
    rw [fillings, hfills, Bool.toNat_false, Nat.zero_add]
    cases hvacates : c.vacates slot t with
    | true =>
      have hgone : (c.edit.after t).value.nodes.isLive slot = false := by
        rw [← Bool.not_eq_true, (h.tenancy slot c).live, hfills, hvacates]
        simp
      exact (h.call c).filled_of_vacant hgone hend
    | false =>
      rw [vacated, hvacates, Bool.false_or] at hleft
      exact ih (h.call c) ((h.tenancy slot c).live.2 (.inr ⟨hlive, hvacates⟩)) hleft hend

end

end GraphData

end LiveGraph
