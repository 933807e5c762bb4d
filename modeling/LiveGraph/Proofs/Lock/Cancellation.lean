import LiveGraph.Proofs.Lock.History

/-!
# Requests to stop a long task

Anybody may ask the long task of a lock to stop, at any time, also when none runs. `Registered` splits
a run at the move that registered the task which the lock knows at its end, and every task that the
lock knows has such a move. The requests after that move are the ones that the task sees at its
yields; those before it are forgotten.
-/

namespace LiveGraph

namespace LockMachine

variable {α : Type}

/-! ## Since a task was registered -/

/-- The move takes a long task off. -/
def Clears (m : LockMachine α) (mv : LockMove α) : Prop :=
  ∃ i task, mv = .proceed i ∧ m.phase i = .ending task

theorem state_of_clears {m m' : LockMachine α} {mv : LockMove α} (h : m.Clears mv)
    (hstep : m.step? mv = some m') : m'.state = m.state.finish := by
  obtain ⟨i, task, rfl, hp⟩ := h
  change m.proceed? i = some m' at hstep
  rw [proceed?, hp] at hstep
  cases hstep
  rfl

/-- No move of the run takes a long task off. -/
def Uncleared : LockMachine α → List (LockMove α) → Prop
  | _, [] => True
  | m, mv :: moves => ¬ m.Clears mv ∧ ∀ m', m.step? mv = some m' → m'.Uncleared moves

theorem Uncleared.append {m m' : LockMachine α} {moves moves' : List (LockMove α)}
    (h : m.Uncleared moves) (hrun : m.run moves = some m') (h' : m'.Uncleared moves') :
    m.Uncleared (moves ++ moves') := by
  induction moves generalizing m with
  | nil =>
    cases hrun
    exact h'
  | cons mv moves ih =>
    obtain ⟨m₁, hstep, hrest⟩ := run_cons hrun
    refine ⟨h.1, fun m₂ hstep₂ => ?_⟩
    rw [hstep] at hstep₂
    cases hstep₂
    exact ih (h.2 m₁ hstep) hrest

/-- While no task is taken off, the lock knows the same one, and remembers every request to stop. -/
theorem Uncleared.state {m m' : LockMachine α} {moves : List (LockMove α)} {task : String}
    (h : m.Uncleared moves) (hrun : m.run moves = some m') (htask : m.state.task = some task) :
    m'.state.task = some task ∧
      (m'.state.cancelled = true ↔ m.state.cancelled = true ∨ .cancel ∈ moves) := by
  induction moves generalizing m with
  | nil =>
    cases hrun
    simp [htask]
  | cons mv moves ih =>
    obtain ⟨m₁, hstep, hrest⟩ := run_cons hrun
    have hfirst : m₁.state.task = some task ∧
        (m₁.state.cancelled = true ↔ m.state.cancelled = true ∨ mv = .cancel) := by
      cases step_revised hstep with
      | keep hmv hstate _ => simp [hstate, htask, hmv]
      | register _ _ hnone =>
        rw [htask] at hnone
        cases hnone
      | @clear i u hp => exact absurd ⟨i, u, rfl, hp⟩ h.1
      | cancel hstate _ => simp [hstate, htask, LockState.cancel]
      | count _ hstate _ => simp [hstate, htask]
      | uncount _ hstate _ _ => simp [hstate, htask]
    obtain ⟨htask', hcancelled⟩ := ih (h.2 m₁ hstep) hrest hfirst.1
    refine ⟨htask', ?_⟩
    rw [hcancelled, hfirst.2, List.mem_cons, or_assoc]
    simp only [eq_comm]

/-- The move of user `i` after the moves `before` registered a task, and the moves `since` then led to
`m` without taking a task off. -/
def Registered (start : LockMachine α) (before since : List (LockMove α)) (i : Nat) (task : String)
    (m : LockMachine α) : Prop :=
  ∃ m₁ m₂, start.run before = some m₁ ∧ m₁.registers? (.proceed i) = some task ∧
    m₁.step? (.proceed i) = some m₂ ∧ m₂.run since = some m ∧ m₂.Uncleared since

namespace Registered

variable {start m m' : LockMachine α} {before since : List (LockMove α)} {i : Nat} {task : String}

/-- A registered task stays registered while none is taken off. -/
theorem append (h : Registered start before since i task m) {moves : List (LockMove α)}
    (hrun : m.run moves = some m') (hmoves : m.Uncleared moves) :
    Registered start before (since ++ moves) i task m' := by
  obtain ⟨m₁, m₂, hbefore, hreg, hstep, hsince, hclear⟩ := h
  refine ⟨m₁, m₂, hbefore, hreg, hstep, ?_, hclear.append hsince hmoves⟩
  rw [run_append, hsince]
  exact hrun

/-- The lock knows the registered task, and that it was asked to stop if it was since then. -/
theorem state (h : Registered start before since i task m) :
    m.state.task = some task ∧ (m.state.cancelled = true ↔ .cancel ∈ since) := by
  obtain ⟨m₁, m₂, -, hreg, hstep, hsince, hclear⟩ := h
  -- the registration itself forgets older requests
  have hm₂ : m₂.state = m₁.state.start task := by
    rw [step_registers hreg hstep]
  have htask : m₂.state.task = some task := by
    rw [hm₂]
    rfl
  obtain ⟨htask', hcancelled⟩ := hclear.state hsince htask
  refine ⟨htask', ?_⟩
  rw [hcancelled, hm₂]
  simp [LockState.start]

end Registered

/-- Every task that the lock knows was registered by a move of the run, and only the user that made
this move can have it. -/
theorem exists_registered {start m : LockMachine α} {moves : List (LockMove α)}
    (hsound : start.Sound) (hidle : start.state.task = none) (hrun : start.run moves = some m)
    {task : String} (htask : m.state.task = some task) :
    ∃ before since j, moves = before ++ .proceed j :: since ∧
      Registered start before since j task m ∧ ∀ i u, (m.standing i).task = some u → i = j := by
  revert task
  -- on the run: a move registers the task, or the task was registered before and this move kept it
  refine run_induction (P := fun moves m => ∀ {task : String}, m.state.task = some task →
    ∃ before since j, moves = before ++ .proceed j :: since ∧
      Registered start before since j task m ∧ ∀ i u, (m.standing i).task = some u → i = j)
    ?_ ?_ hrun
  · intro task htask
    rw [hidle] at htask
    cases htask
  · intro moves m mv m' hrun ih hstep task htask'
    have hsound' := (hsound.run hrun).step hstep
    have hclear : ¬ m.Clears mv := by
      intro hclears
      rw [state_of_clears hclears hstep] at htask'
      cases htask'
    cases htask : m.state.task with
    | none =>
      have hreg : m.registers? mv = some task := by
        rw [registers?_eq hstep, if_pos htask, htask']
      obtain ⟨j, r, rfl, hp, -, -⟩ := registers?_eq_some.1 hreg
      have hstarting : (m'.standing j).task = some task := by
        have hlt : j < m.agents.size := lt_size_of_phase hp (by simp)
        rw [step_registers hreg hstep, standing]
        show ((m.move j (.starting task)).phase j).standing.task = some task
        rw [phase_move m _ _ hlt, if_pos rfl]
        rfl
      refine ⟨moves, [], j, rfl, ⟨m, m', hrun, hreg, hstep, rfl, trivial⟩, fun i u hi => ?_⟩
      exact hsound'.unique i j u task hi hstarting
    | some u =>
      have hmv : m.run [mv] = some m' := by
        rw [run_singleton, hstep]
      have hkept : m.Uncleared [mv] := ⟨hclear, fun _ _ => trivial⟩
      have hsame : some u = some task := by
        rw [← (hkept.state hmv htask).1, htask']
      cases hsame
      obtain ⟨before, since, j, hmoves, hreg, honly⟩ := ih htask
      refine ⟨before, since ++ [mv], j, by simp [hmoves], hreg.append hmv hkept, fun i v hi => ?_⟩
      exact honly i v (((hsound.run hrun).no_entry htask hstep i).2 v hi)

/-! ## What a yield answers -/

/-- The last step of a yield looks whether the task was asked to stop. -/
theorem step_judging {m : LockMachine α} {i : Nat} {task : String} (hp : m.phase i = .judging task) :
    ∃ m', m.step? (.proceed i) = some m' ∧ m'.answer i = .yielded !m.state.cancelled ∧
      m'.checkpoint? i
        = some (if m.state.cancelled then .error (.cancelled task) else .ok ()) := by
  have hlt : i < m.agents.size := lt_size_of_phase hp (by simp)
  have hphase : (m.move i (.inside (.long task)) (.yielded !m.state.cancelled)).phase i
      = .inside (.long task) := by
    rw [phase_move m _ _ hlt, if_pos rfl]
  have hanswer : (m.move i (.inside (.long task)) (.yielded !m.state.cancelled)).answer i
      = .yielded !m.state.cancelled := by
    rw [answer, getElem?_move m _ _ hlt, if_pos rfl]
  refine ⟨_, ?_, hanswer, ?_⟩
  · show m.proceed? i = _
    rw [proceed?, hp]
  · rw [checkpoint?, hphase, hanswer]
    cases m.state.cancelled <;> rfl

/-- In a run that led to `m`, requests to stop concern the task that is registered when they are made,
and no other. -/
structure CancelScoped (start : LockMachine α) (moves : List (LockMove α)) (m : LockMachine α) :
    Prop where
  /-- A yield fails if and only if the task was asked to stop since it was registered, and then a
  checkpoint fails with the name of the task. -/
  yields : ∀ i task, m.phase i = .judging task → ∃ before since,
    moves = before ++ .proceed i :: since ∧ Registered start before since i task m ∧
    ∃ m', m.step? (.proceed i) = some m' ∧
      (m'.answer i = .yielded false ↔ .cancel ∈ since) ∧
      (m'.answer i = .yielded true ↔ .cancel ∉ since) ∧
      (m'.checkpoint? i = some (.error (.cancelled task)) ↔ .cancel ∈ since) ∧
      (m'.checkpoint? i = some (.ok ()) ↔ .cancel ∉ since)
  /-- Once a yield has failed, all later yields of the task fail. -/
  sticky : ∀ i task m₁ later m₂ m₃, m.phase i = .judging task →
    m.step? (.proceed i) = some m₁ → m₁.answer i = .yielded false →
    m₁.run later = some m₂ → m₁.Uncleared later → m₂.phase i = .judging task →
    m₂.step? (.proceed i) = some m₃ → m₃.answer i = .yielded false
  /-- Whoever asks a task to stop learns whether one is registered. -/
  asked : m.state.cancel.1 = true ↔ ∃ before since i task,
    moves = before ++ .proceed i :: since ∧ Registered start before since i task m

/-- However the users of a lock interleave, a request to stop reaches the task that is registered when
it is made, at each of its later yields, and no other task. -/
theorem cancellation_scoped {name : String} {value : α} {moves : List (LockMove α)}
    {m : LockMachine α} (hrun : ({ name, value } : LockMachine α).run moves = some m) :
    CancelScoped { name, value } moves m := by
  have hstart := sound_initial name value
  have hsound : m.Sound := hstart.run hrun
  refine ⟨?_, ?_, ?_⟩
  · intro i task hp
    have hown : (m.standing i).task = some task := by rw [standing, hp]; rfl
    obtain ⟨before, since, j, hmoves, hreg, honly⟩ :=
      exists_registered hstart rfl hrun (hsound.task_eq i task hown)
    cases honly i task hown
    obtain ⟨m', hstep, hanswer, hcheck⟩ := step_judging hp
    refine ⟨before, since, hmoves, hreg, m', hstep, ?_⟩
    rw [hanswer, hcheck, ← hreg.state.2]
    cases m.state.cancelled <;> simp
  · intro i task m₁ later m₂ m₃ hp hstep hfalse hlater hclear hp₂ hstep₂
    obtain ⟨m', hstep', hanswer, -⟩ := step_judging hp
    obtain ⟨m'', hstep'', hanswer₂, -⟩ := step_judging hp₂
    rw [hstep] at hstep'
    rw [hstep₂] at hstep''
    cases hstep'
    cases hstep''
    -- the request that the first yield saw is still remembered at the second
    have hcancelled : m.state.cancelled = true := by
      rw [hfalse] at hanswer
      simpa using hanswer
    have hstate : m₁.state = m.state := by
      change m.proceed? i = some m₁ at hstep
      rw [proceed?, hp] at hstep
      cases hstep
      rfl
    have htask : m₁.state.task = some task := by
      rw [hstate]
      exact hsound.task_eq i task (by rw [standing, hp]; rfl)
    have hcancelled₂ := (hclear.state hlater htask).2.2 (.inl (by rw [hstate, hcancelled]))
    rw [hanswer₂, hcancelled₂]
    rfl
  · show m.state.task.isSome = true ↔ _
    rw [Option.isSome_iff_exists]
    constructor
    · rintro ⟨task, htask⟩
      obtain ⟨before, since, j, hmoves, hreg, -⟩ := exists_registered hstart rfl hrun htask
      exact ⟨before, since, j, task, hmoves, hreg⟩
    · rintro ⟨before, since, i, task, -, hreg⟩
      exact ⟨task, hreg.state.1⟩

/-- A task starts after a request to stop, and is asked to stop itself while it yields. -/
def secondRequest : List (LockMove Nat) :=
  [.join, .cancel, .call 0 (.long "layout"), .proceed 0, .proceed 0, .proceed 0, .proceed 0,
   .yield 0, .proceed 0, .cancel, .proceed 0, .proceed 0]

/-- The task is about to learn of the second request; the first came before it was registered. -/
theorem cancellation_scoped_second_request : ∃ m : LockMachine Nat,
    ({ name := "State", value := 0 } : LockMachine Nat).run secondRequest = some m ∧
    m.phase 0 = .judging "layout" ∧
    CancelScoped { name := "State", value := 0 } secondRequest m := by
  refine ⟨?machine, ?run, ?phase, cancellation_scoped ?run⟩
  case run => rfl
  case phase => rfl

end LockMachine

end LiveGraph
