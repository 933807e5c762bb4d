import LiveGraph.Proofs.Lock.Exclusion

/-!
# What happened in a run of a lock

A run is a list of moves, and what the lock knows at its end goes back to a few of them: the move that
registered the long task, the requests to stop since then, and the moves by which users were counted
as waiters and taken off the count. `Revised` says once how a move changes what the lock knows and
whom it counts, and `registers?` is the task that a move registers.
-/

namespace LiveGraph

/-- The long task that a request is for. -/
def Request.task? : Request → Option String
  | long task | tryLong task => some task
  | _ => none

namespace Phase

theorem isCounted_woken (p : Phase) : p.woken.isCounted = p.isCounted := by
  cases p <;> rfl

theorem woken_ne_sleeping (p : Phase) (task : String) : p.woken ≠ sleeping task := by
  cases p <;> simp [woken]

end Phase

section

variable {σ β : Type} {step : σ → β → Option σ}

/-- A run goes up to its last step, and takes that. -/
theorem foldlM_concat {start s : σ} {xs : List β} {x : β} :
    (xs ++ [x]).foldlM step start = some s ↔
      ∃ s₁, xs.foldlM step start = some s₁ ∧ step s₁ x = some s := by
  rw [List.foldlM_append]
  refine Iff.trans Option.bind_eq_some_iff ?_
  simp

/-- What holds at the start, and outlasts every further step, holds at the end of every run. -/
theorem foldlM_induction {start : σ} {P : List β → σ → Prop} (hstart : P [] start)
    (hstep : ∀ xs s x s', xs.foldlM step start = some s → P xs s → step s x = some s' →
      P (xs ++ [x]) s')
    {xs : List β} {s : σ} (hrun : xs.foldlM step start = some s) : P xs s := by
  have hgo : ∀ (rest before : List β) (mid : σ), before.foldlM step start = some mid →
      P before mid → rest.foldlM step mid = some s → P (before ++ rest) s := by
    intro rest
    induction rest with
    | nil =>
      intro before mid _ hP hrest
      cases hrest
      rw [List.append_nil]
      exact hP
    | cons x rest ih =>
      intro before mid hbefore hP hrest
      rw [List.foldlM_cons] at hrest
      obtain ⟨s₁, hx, hafter⟩ := Option.bind_eq_some_iff.1 hrest
      have hnext := ih (before ++ [x]) s₁ (foldlM_concat.2 ⟨mid, hbefore, hx⟩)
        (hstep before mid x s₁ hbefore hP hx) hafter
      rw [List.append_assoc, List.singleton_append] at hnext
      exact hnext
  exact hgo xs [] start rfl hstart hrun

end

namespace LockMachine

variable {α : Type}

/-! ## Runs by their last move -/

/-- A run goes on from where its first part leads. -/
theorem run_append (m : LockMachine α) (moves moves' : List (LockMove α)) :
    m.run (moves ++ moves') = (m.run moves).bind (·.run moves') := by
  unfold run
  exact List.foldlM_append

theorem run_singleton (m : LockMachine α) (mv : LockMove α) : m.run [mv] = m.step? mv := by
  simp [run]

/-- What holds at the start, and outlasts every further move, holds of every run. -/
theorem run_induction {start : LockMachine α} {P : List (LockMove α) → LockMachine α → Prop}
    (hstart : P [] start)
    (hstep : ∀ moves m mv m', start.run moves = some m → P moves m → m.step? mv = some m' →
      P (moves ++ [mv]) m')
    {moves : List (LockMove α)} {m : LockMachine α} (hrun : start.run moves = some m) :
    P moves m :=
  foldlM_induction hstart hstep hrun

/-- What each of the moves keeps, a run of them keeps. -/
theorem run_invariant {P : LockMachine α → Prop} {m m' : LockMachine α} {moves : List (LockMove α)}
    (hstep : ∀ mv ∈ moves, ∀ m m', P m → m.step? mv = some m' → P m') (h : P m)
    (hrun : m.run moves = some m') : P m' := by
  induction moves generalizing m with
  | nil =>
    cases hrun
    exact h
  | cons mv moves ih =>
    obtain ⟨m₁, hfirst, hrest⟩ := run_cons hrun
    apply ih _ (hstep mv List.mem_cons_self m m₁ h hfirst) hrest
    intro mv' hmem
    exact hstep mv' (List.mem_cons_of_mem _ hmem)

/-! ## What a move changes -/

/-- The number of users that are counted as waiters. -/
def counted (m : LockMachine α) : Nat := m.agents.countP fun a => a.phase.isCounted

/-- Whoever is counted is one of the users that the count is over. -/
theorem counted_pos {m : LockMachine α} {i : Nat} (h : (m.phase i).isCounted = true) :
    0 < m.counted := by
  unfold phase at h
  split at h
  · next a hget => exact Array.countP_pos_iff.2 ⟨a, Array.mem_of_getElem? hget, h⟩
  · cases h

/-- A user that changes its phase enters or leaves the count with it. -/
theorem counted_move (m : LockMachine α) {i : Nat} (p : Phase) (answer : Answer)
    (hi : i < m.agents.size) :
    (m.move i p answer).counted + (m.phase i).isCounted.toNat = m.counted + p.isCounted.toNat := by
  have hphase : m.agents[i].phase = m.phase i := by
    simp [phase, Array.getElem?_eq_getElem hi]
  have hset : (m.move i p answer).counted = m.counted
      - (if m.agents[i].phase.isCounted = true then 1 else 0)
      + (if p.isCounted = true then 1 else 0) := by
    unfold counted move
    rw [Array.setIfInBounds_def, dif_pos hi]
    exact Array.countP_set hi
  rw [hset, hphase]
  cases hold : (m.phase i).isCounted with
  | false => cases p.isCounted <;> simp
  | true =>
    have hpos := counted_pos hold
    cases p.isCounted <;> simp <;> omega

theorem counted_wake (m : LockMachine α) : m.wake.counted = m.counted := by
  unfold counted wake
  rw [Array.countP_map]
  apply Array.countP_congr
  intro a _
  simp [Phase.isCounted_woken]

/-- The move takes nobody into the count or off it, and lays nobody to sleep while no user waits. -/
structure Calm (m m' : LockMachine α) : Prop where
  counted : m'.counted = m.counted
  sleeping : ∀ j task, m'.phase j = .sleeping task →
    m.phase j = .sleeping task ∨ 0 < m.state.waiters

/-- A user goes to a phase in which it is counted as before. -/
theorem Calm.of_move {m m' : LockMachine α} {i : Nat} {old new : Phase} {answer : Answer}
    (hi : i < m.agents.size) (hp : m.phase i = old)
    (hagents : m'.agents = (m.move i new answer).agents) (hcount : new.isCounted = old.isCounted)
    (hawake : ∀ task, new = .sleeping task → 0 < m.state.waiters) : Calm m m' := by
  have hphase : ∀ j, m'.phase j = if j = i then new else m.phase j := by
    intro j
    have hmove := phase_move m new answer hi j
    unfold phase at hmove ⊢
    rw [hagents]
    exact hmove
  constructor
  · have hmove := counted_move m new answer hi
    have hsame : m'.counted = (m.move i new answer).counted := by
      unfold LockMachine.counted
      rw [hagents]
    rw [hp, hcount] at hmove
    omega
  · intro j task hj
    rw [hphase] at hj
    by_cases hji : j = i
    · rw [if_pos hji] at hj
      exact .inr (hawake task hj)
    · rw [if_neg hji] at hj
      exact .inl hj

/-- How a move changes what the lock knows, and whom it counts. -/
inductive Revised (m m' : LockMachine α) : LockMove α → Prop
  | keep {mv : LockMove α} (hmv : mv ≠ .cancel) (hstate : m'.state = m.state) (hcalm : Calm m m') :
      Revised m m' mv
  /-- A user registers its long task. -/
  | register {i : Nat} {r : Request} {task : String} (hp : m.phase i = .entering r)
      (htask : r.task? = some task) (hnone : m.state.task = none)
      (hp' : m'.phase i = .starting task) (hstate : m'.state = m.state.start task)
      (hcalm : Calm m m') : Revised m m' (.proceed i)
  /-- The user of the long task takes it off. -/
  | clear {i : Nat} {task : String} (hp : m.phase i = .ending task)
      (hstate : m'.state = m.state.finish) (hcalm : Calm m m') : Revised m m' (.proceed i)
  /-- Somebody asks the long task to stop. -/
  | cancel (hstate : m'.state = m.state.cancel.2) (hcalm : Calm m m') : Revised m m' .cancel
  /-- A user counts itself as a waiter. -/
  | count {i : Nat} {r : Request} (hp : m.phase i = .announcing r)
      (hstate : m'.state = { m.state with waiters := m.state.waiters + 1 })
      (hcounted : m'.counted = m.counted + 1) : Revised m m' (.proceed i)
  /-- A user takes itself off the count; whoever sleeps while nobody is left is woken. -/
  | uncount {i : Nat} {r : Request} (hp : m.phase i = .granted r)
      (hstate : m'.state = { m.state with waiters := m.state.waiters - 1 })
      (hcounted : m'.counted + 1 = m.counted)
      (hwoken : ∀ j task, m'.phase j = .sleeping task → 0 < m'.state.waiters) :
      Revised m m' (.proceed i)

/-- A user that owns the value registers its long task if there is none. -/
theorem enter_free {m : LockMachine α} {i : Nat} {r : Request} {task : String}
    (htask : r.task? = some task) (hnone : m.state.task = none) :
    m.enter i r = { m.move i (.starting task) with state := m.state.start task } := by
  cases r with
  | read => cases htask
  | write => cases htask
  | long name =>
    cases htask
    rw [enter, LockState.permit, hnone]
  | tryLong name =>
    cases htask
    rw [enter, LockState.permit, hnone]

/-- A user that owns the value registers its task, or the lock learns nothing. -/
theorem revised_enter {m : LockMachine α} {i : Nat} {r : Request} (hi : i < m.agents.size)
    (hp : m.phase i = .entering r) : Revised m (m.enter i r) (.proceed i) := by
  -- readers, writers and refused users leave the lock as it is
  have hkeep : ∀ new, m.enter i r = m.move i new → new.isCounted = false →
      (∀ task, new ≠ .sleeping task) → Revised m (m.enter i r) (.proceed i) := by
    intro new henter hcount hawake
    rw [henter]
    exact .keep (by simp) rfl (.of_move hi hp rfl hcount fun task h => absurd h (hawake task))
  have hregister : ∀ task, r.task? = some task → m.state.task = none →
      Revised m (m.enter i r) (.proceed i) := by
    intro task htask hnone
    rw [enter_free htask hnone]
    refine .register hp htask hnone ?_ rfl (.of_move hi hp rfl rfl (by simp))
    show (m.move i (.starting task)).phase i = .starting task
    rw [phase_move m _ _ hi, if_pos rfl]
  by_cases hr : r = .read
  · subst hr
    exact hkeep (.inside .read) rfl rfl (by simp)
  · cases htask : m.state.task with
    | some task => exact hkeep _ (enter_busy hr htask) rfl (by simp)
    | none =>
      cases r with
      | read => exact absurd rfl hr
      | write => exact hkeep (.inside .write) (by rw [enter, LockState.permit, htask]) rfl (by simp)
      | long name => exact hregister name rfl htask
      | tryLong name => exact hregister name rfl htask

/-- The machine with one waiter less in its count. -/
def lowered (m : LockMachine α) : LockMachine α :=
  { m with state := { m.state with waiters := m.state.waiters - 1 } }

theorem uncount_eq (m : LockMachine α) :
    m.uncount = if m.state.waiters - 1 = 0 then m.lowered.wake else m.lowered := rfl

/-- A waiter that got the value is taken off the count, and the last one wakes the sleepers. -/
theorem revised_uncount {m : LockMachine α} {i : Nat} {r : Request} (hi : i < m.agents.size)
    (hp : m.phase i = .granted r) : Revised m (m.uncount.move i (.entering r)) (.proceed i) := by
  have hsize : i < m.uncount.agents.size := by
    rw [uncount_eq]
    split <;> simp [wake, lowered, hi]
  have hstate : m.uncount.state = m.lowered.state := by
    rw [uncount_eq]
    split <;> rfl
  have hcount : m.uncount.counted = m.counted := by
    rw [uncount_eq]
    split
    · exact counted_wake _
    · rfl
  -- the user was counted until now
  have hgranted : (m.uncount.phase i).isCounted = true := by
    rcases phase_uncount m i with hsame | hwoken
    · rw [hsame, hp]
      rfl
    · rw [hwoken, hp]
      rfl
  refine .uncount hp hstate ?_ fun j task hj => ?_
  · have hmove := counted_move m.uncount (.entering r) .none hsize
    rw [hgranted, hcount] at hmove
    simpa [Phase.isCounted] using hmove
  · show 0 < m.uncount.state.waiters
    rw [hstate]
    apply Nat.pos_of_ne_zero
    intro (hzero : m.state.waiters - 1 = 0)
    -- with nobody left in the count all sleepers were woken
    have hwake : m.uncount = m.lowered.wake := by
      rw [uncount_eq, if_pos hzero]
    rw [phase_move m.uncount _ _ hsize] at hj
    by_cases hji : j = i
    · simp [hji] at hj
    · rw [if_neg hji, hwake, phase_wake] at hj
      exact Phase.woken_ne_sleeping _ _ hj

/-- The next step of a user's call. -/
theorem revised_proceed {m m' : LockMachine α} {i : Nat} (h : m.proceed? i = some m') :
    Revised m m' (.proceed i) := by
  have hi : m.phase i ≠ .idle → i < m.agents.size := lt_size_of_phase rfl
  -- most steps leave the lock's knowledge alone and lead neither into the count nor to sleep
  have hkeep : ∀ {old new : Phase} {answer : Answer}, m.phase i = old → old ≠ .idle →
      m'.agents = (m.move i new answer).agents → m'.state = m.state →
      new.isCounted = old.isCounted → (∀ task, new = .sleeping task → 0 < m.state.waiters) →
        Revised m m' (.proceed i) := by
    intro old new answer hp hold hagents hstate hcount hawake
    exact .keep (by simp) hstate (.of_move (hi (hp ▸ hold)) hp hagents hcount hawake)
  unfold proceed? at h
  cases hp : m.phase i with
  | idle =>
    rw [hp] at h
    cases h
  | inside s =>
    rw [hp] at h
    cases h
  | sleeping task =>
    rw [hp] at h
    cases h
  | checking r =>
    rw [hp] at h
    dsimp only at h
    split at h
    · cases h
      exact hkeep hp (by simp) rfl rfl rfl (by simp)
    · cases h
      exact hkeep hp (by simp) rfl rfl rfl (by simp)
  | trying r =>
    rw [hp] at h
    dsimp only at h
    split at h
    · cases h
      exact hkeep hp (by simp) rfl rfl rfl (by simp)
    · cases h
      exact hkeep hp (by simp) rfl rfl rfl (by simp)
    · cases h
      exact hkeep hp (by simp) rfl rfl rfl (by simp)
  | announcing r =>
    rw [hp] at h hi
    cases h
    refine .count hp rfl ?_
    have hmove := counted_move m (.waiting r) .none (hi (by simp))
    rw [hp] at hmove
    exact hmove
  | waiting r =>
    rw [hp] at h
    dsimp only at h
    split at h
    · cases h
      exact hkeep hp (by simp) rfl rfl rfl (by simp)
    · cases h
  | granted r =>
    rw [hp] at h hi
    cases h
    exact revised_uncount (hi (by simp)) hp
  | entering r =>
    rw [hp] at h hi
    cases h
    exact revised_enter (hi (by simp)) hp
  | starting task =>
    rw [hp] at h
    cases h
    exact hkeep hp (by simp) rfl rfl rfl (by simp)
  | rejected e =>
    rw [hp] at h
    cases h
    exact hkeep hp (by simp) rfl rfl rfl (by simp)
  | yielding task =>
    rw [hp] at h
    cases h
    exact hkeep hp (by simp) rfl rfl rfl (by simp)
  | draining task =>
    rw [hp] at h
    dsimp only at h
    split at h
    · cases h
      exact hkeep hp (by simp) rfl rfl rfl (by simp)
    · next hwaiters =>
      cases h
      exact hkeep hp (by simp) rfl rfl rfl fun _ _ => Nat.pos_of_ne_zero hwaiters
  | returning task =>
    rw [hp] at h
    dsimp only at h
    split at h
    · cases h
      exact hkeep hp (by simp) rfl rfl rfl (by simp)
    · cases h
  | judging task =>
    rw [hp] at h
    cases h
    exact hkeep hp (by simp) rfl rfl rfl (by simp)
  | ending task =>
    rw [hp] at h hi
    cases h
    exact .clear hp rfl (.of_move (hi (by simp)) hp rfl rfl (by simp))
  | telling task =>
    rw [hp] at h
    cases h
    exact hkeep hp (by simp) rfl rfl rfl (by simp)
  | leaving =>
    rw [hp] at h
    cases h
    exact hkeep hp (by simp) rfl rfl rfl (by simp)

/-- Every move changes what the lock knows in one of these ways. -/
theorem step_revised {m m' : LockMachine α} {mv : LockMove α} (h : m.step? mv = some m') :
    Revised m m' mv := by
  cases mv with
  | join =>
    cases h
    -- one more user, who is not counted
    refine .keep (by simp) rfl ⟨?_, fun j task hj => .inl ?_⟩
    · unfold counted
      simp [Phase.isCounted]
    · -- the new user is idle
      unfold phase at hj ⊢
      by_cases hlast : j = m.agents.size
      · simp [hlast] at hj
      · simpa [Array.getElem?_push, hlast] using hj
  | call i r =>
    rw [step?] at h
    split at h
    · next a hget =>
      cases h
      have hi : i < m.agents.size := (Array.getElem?_eq_some_iff.1 hget).1
      have hp : m.phase i = .idle := by
        simp [phase, hget]
      refine .keep (by simp) rfl (.of_move hi hp rfl ?_ ?_)
      · cases r <;> rfl
      · cases r <;> simp [opening]
    · cases h
  | update i f =>
    obtain ⟨s, -, -, rfl⟩ := step_update h
    exact .keep (by simp) rfl ⟨rfl, fun j task hj => .inl hj⟩
  | cancel =>
    cases h
    exact .cancel rfl ⟨rfl, fun j task hj => .inl hj⟩
  | yield i =>
    rw [step?] at h
    split at h
    · next task hp =>
      cases h
      exact .keep (by simp) rfl (.of_move (lt_size_of_phase hp (by simp)) hp rfl rfl (by simp))
    · cases h
  | release i =>
    rw [step?] at h
    split at h
    · next task hp =>
      cases h
      exact .keep (by simp) rfl (.of_move (lt_size_of_phase hp (by simp)) hp rfl rfl (by simp))
    · next s _ hp =>
      cases h
      exact .keep (by simp) rfl (.of_move (lt_size_of_phase hp (by simp)) hp rfl rfl (by simp))
    · cases h
  | proceed i => exact revised_proceed h
  | fail i =>
    rw [step?] at h
    split at h
    · next task hp =>
      cases h
      exact .keep (by simp) rfl (.of_move (lt_size_of_phase hp (by simp)) hp rfl rfl (by simp))
    · next task hp =>
      cases h
      exact .keep (by simp) rfl (.of_move (lt_size_of_phase hp (by simp)) hp rfl rfl (by simp))
    · cases h

/-! ## The task that the lock knows -/

/-- The long task that a move registers. -/
def registers? (m : LockMachine α) : LockMove α → Option String
  | .proceed i =>
    match m.phase i, m.state.task with
    | .entering r, none => r.task?
    | _, _ => none
  | _ => none

/-- A task is registered by entering, when none is registered. -/
theorem registers?_eq_some {m : LockMachine α} {mv : LockMove α} {task : String} :
    m.registers? mv = some task ↔
      ∃ i r, mv = .proceed i ∧ m.phase i = .entering r ∧ m.state.task = none ∧
        r.task? = some task := by
  constructor
  · intro h
    cases mv with
    | proceed i =>
      rw [registers?] at h
      split at h
      · next r hp hnone => exact ⟨i, r, rfl, hp, hnone, h⟩
      · cases h
    | _ => cases h
  · rintro ⟨i, r, rfl, hp, hnone, htask⟩
    simp [registers?, hp, hnone, htask]

/-- The user of a registered task is about to tell the observers. -/
theorem step_registers {m m' : LockMachine α} {i : Nat} {task : String}
    (hreg : m.registers? (.proceed i) = some task) (h : m.step? (.proceed i) = some m') :
    m' = { m.move i (.starting task) with state := m.state.start task } := by
  obtain ⟨j, r, hj, hp, hnone, htask⟩ := registers?_eq_some.1 hreg
  cases hj
  change m.proceed? i = some m' at h
  rw [proceed?, hp] at h
  cases h
  exact enter_free htask hnone

/-- A move registers the task that the lock comes to know by it. -/
theorem registers?_eq {m m' : LockMachine α} {mv : LockMove α} (h : m.step? mv = some m') :
    m.registers? mv = if m.state.task = none then m'.state.task else none := by
  cases hreg : m.registers? mv with
  | some task =>
    obtain ⟨i, r, rfl, -, hnone, -⟩ := registers?_eq_some.1 hreg
    rw [if_pos hnone, step_registers hreg h]
    rfl
  | none =>
    split
    · next hnone =>
      cases step_revised h with
      | keep _ hstate _ => rw [hstate, hnone]
      | @register i r task hp htask hnone' _ _ _ =>
        rw [registers?_eq_some.2 ⟨i, r, rfl, hp, hnone', htask⟩] at hreg
        cases hreg
      | clear _ hstate _ => rw [hstate]; rfl
      | cancel hstate _ => rw [hstate]; exact hnone.symm
      | count _ hstate _ => rw [hstate]; exact hnone.symm
      | uncount _ hstate _ _ => rw [hstate]; exact hnone.symm
    · rfl

end LockMachine

end LiveGraph
