import LiveGraph.Proofs.Lock.Exclusion

/-!
# What the observers of a lock know

A user that registers a task or takes it off tells the observers before it gives the value up. So
whoever heard all that was told knows the registered task, except while its user still owes the news,
and then that user owns the value.
-/

namespace LiveGraph

/-- Who owes news owns the value. -/
theorem Phase.owns_of_owed {p : Phase} {x : Option String} (h : p.standing.owed = some x) :
    p.standing.owns = true := by
  cases p with
  | starting task => rfl
  | telling task => rfl
  | inside s =>
    cases s with
    | _ => cases h
  | _ => cases h

theorem Phase.owed_eq_none {p : Phase} (h : p.owns = false) : p.standing.owed = none := by
  rw [Option.eq_none_iff_forall_ne_some]
  intro x hx
  have howns := owns_of_owed hx
  rw [owns_standing, h] at howns
  cases howns

/-- Everybody owes what it owed before, if the user that moved does. -/
theorem owed_eq_of_others {s s' : Nat → Standing} {i : Nat} (hi : (s' i).owed = (s i).owed)
    (hothers : ∀ j, j ≠ i → s' j = s j) (j : Nat) : (s' j).owed = (s j).owed := by
  by_cases hji : j = i
  · rw [hji, hi]
  · rw [hothers j hji]

/-- What was heard last is the registered task, unless a user owes the news of it. -/
structure Announced (standing : Nat → Standing) (task heard : Option String) : Prop where
  owing : ∀ i x, (standing i).owed = some x → task = x
  settled : (∀ i, (standing i).owed = none) → heard = task

namespace Announced

variable {s s' : Nat → Standing} {owner owner' : Option Nat} {task task' heard : Option String}
  {i : Nat} {told : List (Option String)}

/-- A user that owes what it owed before. -/
theorem retain (h : Announced s task heard) (hi : (s' i).owed = (s i).owed)
    (hothers : ∀ j, j ≠ i → s' j = s j) : Announced s' task heard := by
  have howed := owed_eq_of_others hi hothers
  refine ⟨fun j x hj => ?_, fun hnone => ?_⟩
  · rw [howed] at hj
    exact h.owing j x hj
  · apply h.settled
    intro j
    rw [← howed]
    exact hnone j

/-- A user that owns the value comes to owe news of the task that is now registered. -/
theorem owe (hg : Guarded s owner task) (howns : ∀ j x, (s j).owed = some x → (s j).owns = true)
    (hi : (s i).owns = true) (hi' : (s' i).owed = some task')
    (hothers : ∀ j, j ≠ i → s' j = s j) : Announced s' task' heard := by
  refine ⟨fun j x hj => ?_, fun hnone => ?_⟩
  · by_cases hji : j = i
    · rw [hji, hi'] at hj
      exact Option.some.inj hj
    · rw [hothers j hji] at hj
      exact absurd (hg.eq_of_owns (howns j x hj) hi) hji
  · have hcontra := hnone i
    rw [hi'] at hcontra
    cases hcontra

/-- Every turn in which no observer gives up keeps the observers informed. -/
theorem turn (h : Announced s task heard) (hg : Guarded s owner task)
    (howns : ∀ j x, (s j).owed = some x → (s j).owns = true)
    (hturn : Standing.Turn false i (s i) owner task (s' i) owner' task' told)
    (hothers : ∀ j, j ≠ i → s' j = s j) :
    Announced s' task' (told.foldl (fun _ x => x) heard) := by
  generalize hold : s i = old at hturn
  generalize hnew : s' i = new at hturn
  cases hturn with
  | keep => exact h.retain (by rw [hold, hnew]) hothers
  | acquire => exact h.retain (by rw [hold, hnew]) hothers
  | surrender => exact h.retain (by rw [hold, hnew]) hothers
  | abort _ _ _ _ hfails => cases hfails
  | enter => exact h.retain (by rw [hold, hnew]) hothers
  | dismiss => exact h.retain (by rw [hold, hnew]) hothers
  | start name => exact owe hg howns (by rw [hold]) (by rw [hnew]) hothers
  | finish name => exact owe hg howns (by rw [hold]) (by rw [hnew]) hothers
  | @tell _ _ _ x howed =>
    have hsi : (s i).owed = some x := by
      rw [hold]
      exact howed
    refine ⟨fun j y hj => ?_, fun _ => (h.owing i x hsi).symm⟩
    by_cases hji : j = i
    · rw [hji, hnew] at hj
      cases hj
    · rw [hothers j hji] at hj
      exact absurd (hg.eq_of_owns (howns j y hj) (howns i x hsi)) hji

end Announced

/-- A user without the value tells nothing, and takes the value only when nobody has it. -/
theorem Standing.Turn.of_not_owns {fails : Bool} {i : Nat} {old new : Standing}
    {owner owner' : Option Nat} {task task' : Option String} {told : List (Option String)}
    (h : Turn fails i old owner task new owner' task' told) (howns : old.owns = false)
    (howed : old.owed = none) (howner : owner ≠ none) : owner' = owner ∧ told = [] := by
  cases h with
  | keep => exact ⟨rfl, rfl⟩
  | acquire => exact absurd rfl howner
  | surrender _ _ _ hown =>
    rw [hown] at howns
    cases howns
  | abort _ _ _ hown =>
    rw [hown] at howns
    cases howns
  | enter => exact ⟨rfl, rfl⟩
  | dismiss => exact ⟨rfl, rfl⟩
  | start => cases howns
  | finish => cases howns
  | tell _ _ _ hx =>
    rw [hx] at howed
    cases howed

end LiveGraph
