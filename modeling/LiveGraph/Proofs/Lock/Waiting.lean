import LiveGraph.Proofs.Lock.History

/-!
# Waiters are served at a yield

A user that finds the value owned counts itself as a waiter, and the user of a long task that yields
goes to sleep while anybody is counted. The count is right in every state, so a sleeping user always
has a waiter that will wake it. A waiter that was counted when the value was given up keeps the task
away until it has had its turn: it is counted until it has the value, and owns the value until it is
through.
-/

namespace LiveGraph

namespace Phase

/-- The user of a task has given the value up, and still looks for waiters. -/
def Drains (task : String) (p : Phase) : Prop := p = draining task ∨ p = sleeping task

/-- The user of a task has given the value up, and not taken it back yet. -/
def Away (task : String) (p : Phase) : Prop := p.Drains task ∨ p = returning task

/-- The user waits for the value, or has it and is not through yet. -/
def passes : Phase → Bool
  | waiting _ | granted _ | entering _ | rejected _ => true
  | _ => false

/-- A user on its way is not asleep. -/
theorem woken_of_passes {p : Phase} (h : p.passes = true) : p.woken = p := by
  cases p with
  | sleeping task => cases h
  | _ => rfl

theorem Drains.woken {p : Phase} {task : String} (h : p.Drains task) : p.woken.Drains task := by
  rcases h with rfl | rfl <;> exact .inl rfl

theorem Away.woken {p : Phase} {task : String} (h : p.Away task) : p.woken.Away task := by
  rcases h with h | rfl
  · exact .inl h.woken
  · exact .inr rfl

theorem Away.task_eq {p : Phase} {task : String} (h : p.Away task) :
    p.standing.task = some task := by
  rcases h with (rfl | rfl) | rfl <;> rfl

/-- A task that is away is not on its way back. -/
theorem Away.passes_eq {p : Phase} {task : String} (h : p.Away task) : p.passes = false := by
  rcases h with (rfl | rfl) | rfl <;> rfl

end Phase

namespace LockMachine

variable {α : Type}

/-! ## The count -/

/-- The lock counts its waiters, and nobody sleeps while there are none. -/
structure Attended (m : LockMachine α) : Prop where
  waiters : m.state.waiters = m.counted
  awake : ∀ i task, m.phase i = .sleeping task → 0 < m.state.waiters

/-- At the start nobody waits. -/
theorem attended_initial (name : String) (value : α) : Attended { name, value } where
  waiters := rfl
  awake i task hp := by simp [phase] at hp

/-- A step that counts nobody and wakes nobody changes nothing here. -/
theorem Attended.calm {m m' : LockMachine α} (h : m.Attended) (hcalm : Calm m m')
    (hsame : m'.state.waiters = m.state.waiters) : m'.Attended := by
  constructor
  · rw [hsame, hcalm.counted]
    exact h.waiters
  · intro i task hp
    rw [hsame]
    rcases hcalm.sleeping i task hp with hslept | hpos
    · exact h.awake i task hslept
    · exact hpos

/-- Every move keeps the count right, and wakes the sleepers when the last waiter goes. -/
theorem Attended.step {m m' : LockMachine α} {mv : LockMove α} (h : m.Attended)
    (hstep : m.step? mv = some m') : m'.Attended := by
  have hwaiters := h.waiters
  cases step_revised hstep with
  | keep _ hstate hcalm => exact h.calm hcalm (by rw [hstate])
  | register _ _ _ _ hstate hcalm => exact h.calm hcalm (by rw [hstate]; rfl)
  | clear _ hstate hcalm => exact h.calm hcalm (by rw [hstate]; rfl)
  | cancel hstate hcalm => exact h.calm hcalm (by rw [hstate]; rfl)
  | count _ hstate hcounted =>
    constructor
    · simp [hstate, hcounted, hwaiters]
    · intro i task _
      simp [hstate]
  | uncount _ hstate hcounted hwoken =>
    constructor
    · simp only [hstate]
      omega
    · exact hwoken

/-- The count is right in every run. -/
theorem Attended.run {m m' : LockMachine α} {moves : List (LockMove α)} (h : m.Attended)
    (hrun : m.run moves = some m') : m'.Attended :=
  run_invariant (P := Attended) (fun _ _ _ _ hm hstep => hm.step hstep) h hrun

/-! ## Keeping a task away -/

/-- User `j` keeps user `i`, which yields, from taking the value back: it is counted while `i` still
looks for waiters, or it owns the value. -/
structure Detains (m : LockMachine α) (j i : Nat) (task : String) : Prop where
  passes : (m.phase j).passes = true
  detained : (m.phase j).isCounted = true ∧ (m.phase i).Drains task ∨
    (m.phase j).owns = true ∧ (m.phase i).Away task

namespace Detains

variable {m m' : LockMachine α} {j i : Nat} {task : String}

/-- The detained user is still away. -/
theorem away (h : Detains m j i task) : (m.phase i).Away task := by
  rcases h.detained with ⟨-, hi⟩ | ⟨-, hi⟩
  · exact .inl hi
  · exact hi

theorem ne (h : Detains m j i task) : i ≠ j := by
  rintro rfl
  have hpasses := h.passes
  rw [h.away.passes_eq] at hpasses
  cases hpasses

/-- The user that is kept away can look for waiters again, but not take the value. -/
theorem step_self (h : Detains m j i task) (hs : m.Sound) (ha : m.Attended)
    (hstep : m.step? (.proceed i) = some m') : Detains m' j i task := by
  change m.proceed? i = some m' at hstep
  have hlt : i < m.agents.size := by
    apply lt_size_of_phase rfl
    rcases h.away with (hi | hi) | hi <;> simp [hi]
  have hj : ∀ p answer, (m.move i p answer).phase j = m.phase j := by
    intro p answer
    rw [phase_move m p answer hlt, if_neg h.ne.symm]
  have hi' : ∀ p answer, (m.move i p answer).phase i = p := by
    intro p answer
    rw [phase_move m p answer hlt, if_pos rfl]
  rw [proceed?] at hstep
  rcases h.away with (hi | hi) | hi
  · rw [hi] at hstep
    cases hstep
    refine ⟨by rw [hj]; exact h.passes, ?_⟩
    rw [hj, hi']
    rcases h.detained with ⟨hcounted, -⟩ | ⟨howns, -⟩
    · -- somebody is counted, so it goes to sleep
      have hpos := counted_pos hcounted
      rw [← ha.waiters] at hpos
      rw [if_neg (Nat.ne_of_gt hpos)]
      exact .inl ⟨hcounted, .inr rfl⟩
    · refine .inr ⟨howns, ?_⟩
      split
      · exact .inr rfl
      · exact .inl (.inr rfl)
  · rw [hi] at hstep
    cases hstep
  · rcases h.detained with ⟨-, hdrains⟩ | ⟨howns, -⟩
    · rcases hdrains with hd | hd <;> simp [hi] at hd
    · -- the value has an owner
      have howner := (hs.owner_iff j).2 (by rw [standing, Phase.owns_standing]; exact howns)
      rw [hi] at hstep
      simp only [howner] at hstep
      cases hstep

/-- Whatever the others do, a user stays where it is and keeps the task away. -/
theorem step (h : Detains m j i task) (hs : m.Sound) (ha : m.Attended) {mv : LockMove α}
    (hstep : m.step? mv = some m') (hmv : mv.agent? ≠ some j) :
    m'.phase j = m.phase j ∧ Detains m' j i task := by
  have hj : m'.phase j = m.phase j := by
    have hframe := (step_frame hstep hmv).1
    rw [Phase.woken_of_passes h.passes, or_self] at hframe
    exact hframe
  refine ⟨hj, ?_⟩
  -- the detained user moves, or somebody else who can at most wake it
  by_cases hi : mv.agent? = some i
  · have hproceed : mv = .proceed i := by
      apply eq_proceed hstep hi
      all_goals rcases h.away with (hp | hp) | hp <;> simp [hp]
    subst hproceed
    exact h.step_self hs ha hstep
  · refine ⟨by rw [hj]; exact h.passes, ?_⟩
    rw [hj]
    rcases (step_frame hstep hi).1 with hsame | hwoken
    · rw [hsame]
      exact h.detained
    · rw [hwoken]
      exact h.detained.imp (And.imp_right Phase.Drains.woken) (And.imp_right Phase.Away.woken)

end Detains

/-- In these moves user `j` does nothing but go on with its call. -/
def Onward (m : LockMachine α) (j : Nat) (moves : List (LockMove α)) (m' : LockMachine α) : Prop :=
  m.run moves = some m' ∧ ∀ mv ∈ moves, mv.agent? = some j → mv = .proceed j

namespace Onward

variable {m m₁ m₂ : LockMachine α} {j : Nat} {moves moves' : List (LockMove α)}

/-- A single step of the user itself is a way onward. -/
theorem one (h : m.step? (.proceed j) = some m₁) : Onward m j [.proceed j] m₁ := by
  refine ⟨by rw [run_singleton, h], ?_⟩
  intro mv hmv _
  exact List.mem_singleton.1 hmv

/-- Ways onward can be put one behind the other. -/
theorem trans (h : Onward m j moves m₁) (h' : Onward m₁ j moves' m₂) :
    Onward m j (moves ++ moves') m₂ := by
  refine ⟨by rw [run_append, h.1]; exact h'.1, ?_⟩
  intro mv hmv
  rcases List.mem_append.1 hmv with hin | hin
  · exact h.2 mv hin
  · exact h'.2 mv hin

/-- The name of the lock stays. -/
theorem name (h : Onward m j moves m₁) : m₁.name = m.name :=
  run_invariant (P := fun m₁ => m₁.name = m.name)
    (fun _ _ _ _ hname hstep => (step_name hstep).trans hname) rfl h.1

end Onward

/-- A task that returns has let the user that kept it away take a step of its call. -/
theorem Detains.next {m m' : LockMachine α} {moves : List (LockMove α)} {j i : Nat} {task : String}
    (h : Detains m j i task) (hs : m.Sound) (ha : m.Attended) (hrun : m.run moves = some m')
    (hback : m'.phase i = .inside (.long task)) :
    ∃ before after mid mid', moves = before ++ .proceed j :: after ∧ Onward m j before mid ∧
      mid.Sound ∧ mid.Attended ∧ mid.phase j = m.phase j ∧ Detains mid j i task ∧
      mid.step? (.proceed j) = some mid' ∧ mid'.run after = some m' := by
  induction moves generalizing m with
  | nil =>
    cases hrun
    rcases h.away with (hp | hp) | hp <;> simp [hp] at hback
  | cons mv moves ih =>
    obtain ⟨m₁, hstep, hrest⟩ := run_cons hrun
    by_cases hj : mv.agent? = some j
    · have hpasses := h.passes
      have hproceed : mv = .proceed j := by
        apply eq_proceed hstep hj
        · intro hp
          simp [hp, Phase.passes] at hpasses
        · intro s hp
          simp [hp, Phase.passes] at hpasses
        · intro task hp
          simp [hp, Phase.passes] at hpasses
        · intro task hp
          simp [hp, Phase.passes] at hpasses
      subst hproceed
      exact ⟨[], moves, m, m₁, rfl, ⟨rfl, by simp⟩, hs, ha, rfl, h, hstep, hrest⟩
    · obtain ⟨hsame, hd⟩ := h.step hs ha hstep hj
      obtain ⟨before, after, mid, mid', rfl, hon, hs', ha', hp, hd', hmid, hafter⟩ :=
        ih hd (hs.step hstep) (ha.step hstep) hrest
      have hfirst : Onward m j [mv] m₁ := by
        refine ⟨by rw [run_singleton, hstep], ?_⟩
        intro mv' hmv' hagent
        rw [List.mem_singleton.1 hmv'] at hagent
        exact absurd hagent hj
      exact ⟨mv :: before, after, mid, mid', rfl, hfirst.trans hon, hs', ha', hp.trans hsame, hd', hmid,
        hafter⟩

/-! ## The way of a waiter -/

/-- A waiter takes the value when it is free, and is still counted. -/
theorem Detains.step_waiting {m m' : LockMachine α} {j i : Nat} {task : String} {r : Request}
    (h : Detains m j i task) (hp : m.phase j = .waiting r) (hstep : m.step? (.proceed j) = some m') :
    m.owner = none ∧ m'.owner = some j ∧ m'.phase j = .granted r ∧ Detains m' j i task := by
  have hlt : j < m.agents.size := lt_size_of_phase hp (by simp)
  change m.proceed? j = some m' at hstep
  rw [proceed?, hp] at hstep
  dsimp only at hstep
  split at hstep
  · next howner =>
    cases hstep
    have hj : (m.move j (.granted r)).phase j = .granted r := by
      rw [phase_move m _ _ hlt, if_pos rfl]
    have hi : (m.move j (.granted r)).phase i = m.phase i := by
      rw [phase_move m _ _ hlt, if_neg h.ne]
    refine ⟨howner, rfl, hj, ?_, ?_⟩
    · show ((m.move j (.granted r)).phase j).passes = true
      rw [hj]
      rfl
    · show ((m.move j (.granted r)).phase j).isCounted = true ∧ _ ∨ _
      rcases h.detained with ⟨-, hdrains⟩ | ⟨howns, -⟩
      · left
        rw [hj]
        refine ⟨rfl, ?_⟩
        show ((m.move j (.granted r)).phase i).Drains task
        rw [hi]
        exact hdrains
      · rw [hp] at howns
        cases howns
  · cases hstep

/-- A waiter that has the value is taken off the count, and owns the value. -/
theorem Detains.step_granted {m m' : LockMachine α} {j i : Nat} {task : String} {r : Request}
    (h : Detains m j i task) (hp : m.phase j = .granted r) (hstep : m.step? (.proceed j) = some m') :
    m'.phase j = .entering r ∧ Detains m' j i task := by
  have hj : m'.phase j = .entering r := by
    change m.proceed? j = some m' at hstep
    rw [proceed?, hp] at hstep
    cases hstep
    have hlt : j < m.uncount.agents.size := by
      apply lt_size_of_phase rfl
      rcases phase_uncount m j with hsame | hwoken
      · simp [hsame, hp]
      · simp [hwoken, hp, Phase.woken]
    rw [phase_move m.uncount _ _ hlt, if_pos rfl]
  refine ⟨hj, by rw [hj]; rfl, .inr ⟨by rw [hj]; rfl, ?_⟩⟩
  have hne : (LockMove.proceed j : LockMove α).agent? ≠ some i := by
    simpa [LockMove.agent?] using h.ne.symm
  rcases (step_frame hstep hne).1 with hsame | hwoken
  · rw [hsame]
    exact h.away
  · rw [hwoken]
    exact h.away.woken

/-- Who owns the value while a task is away gets in as a reader, and is turned away otherwise. -/
theorem Detains.step_entering {m m' : LockMachine α} {j i : Nat} {task : String} {r : Request}
    (h : Detains m j i task) (hs : m.Sound) (hp : m.phase j = .entering r)
    (hstep : m.step? (.proceed j) = some m') :
    if r = .read then m'.phase j = .inside .read
    else m'.phase j = .rejected (.busy m.name (some task)) ∧ Detains m' j i task := by
  have hlt : j < m.agents.size := lt_size_of_phase hp (by simp)
  have hj : ∀ p answer, (m.move j p answer).phase j = p := by
    intro p answer
    rw [phase_move m p answer hlt, if_pos rfl]
  change m.proceed? j = some m' at hstep
  rw [proceed?, hp] at hstep
  cases hstep
  split
  · next hr =>
    subst hr
    exact hj _ _
  · next hr =>
    have htask : m.state.task = some task := hs.task_eq i task h.away.task_eq
    rw [enter_busy hr htask]
    refine ⟨hj _ _, by rw [hj]; rfl, .inr ⟨by rw [hj]; rfl, ?_⟩⟩
    rw [phase_move m _ _ hlt, if_neg h.ne]
    exact h.away

/-- In these moves waiter `j` takes the value and, with nothing in between but the rest of its call,
gets in if it reads, and is turned away from task `task` otherwise. -/
def Served (m : LockMachine α) (moves : List (LockMove α)) (j : Nat) (r : Request) (task : String) :
    Prop :=
  ∃ before after rest mid mid' m', moves = before ++ .proceed j :: (after ++ rest) ∧
    Onward m j before mid ∧ mid.phase j = .waiting r ∧ mid.owner = none ∧
    mid.step? (.proceed j) = some mid' ∧ mid'.owner = some j ∧ Onward mid' j after m' ∧
    if r = .read then m'.phase j = .inside .read
    else m'.phase j = .idle ∧ m'.answer j = .refused (.busy m.name (some task))

/-- A waiter that keeps a task away is served before the task returns. -/
theorem Detains.served {m m' : LockMachine α} {moves : List (LockMove α)} {j i : Nat} {task : String}
    {r : Request} (h : Detains m j i task) (hs : m.Sound) (ha : m.Attended)
    (hp : m.phase j = .waiting r) (hrun : m.run moves = some m')
    (hback : m'.phase i = .inside (.long task)) : Served m moves j r task := by
  -- it takes the value
  obtain ⟨before, after, m₁, m₁', rfl, hon₁, hs₁, ha₁, hp₁, hd₁, hstep₁, hrun₁⟩ :=
    h.next hs ha hrun hback
  rw [hp] at hp₁
  obtain ⟨hfree, howner, hgranted, hd₁'⟩ := hd₁.step_waiting hp₁ hstep₁
  -- it is taken off the count
  obtain ⟨before₂, after₂, m₂, m₂', rfl, hon₂, hs₂, ha₂, hp₂, hd₂, hstep₂, hrun₂⟩ :=
    hd₁'.next (hs₁.step hstep₁) (ha₁.step hstep₁) hrun₁ hback
  rw [hgranted] at hp₂
  obtain ⟨hentering, hd₂'⟩ := hd₂.step_granted hp₂ hstep₂
  -- it looks for a task
  obtain ⟨before₃, after₃, m₃, m₃', rfl, hon₃, hs₃, ha₃, hp₃, hd₃, hstep₃, hrun₃⟩ :=
    hd₂'.next (hs₂.step hstep₂) (ha₂.step hstep₂) hrun₂ hback
  rw [hentering] at hp₃
  have hthird := hd₃.step_entering hs₃ hp₃ hstep₃
  have hpath : Onward m₁' j (before₂ ++ ([.proceed j] ++ (before₃ ++ [.proceed j]))) m₃' :=
    hon₂.trans ((Onward.one hstep₂).trans (hon₃.trans (Onward.one hstep₃)))
  by_cases hr : r = .read
  · rw [if_pos hr] at hthird
    refine ⟨before, _, after₃, m₁, m₁', m₃', ?_, hon₁, hp₁, hfree, hstep₁, howner, hpath, ?_⟩
    · simp
    · rw [if_pos hr]
      exact hthird
  · -- it gives the value up again
    rw [if_neg hr] at hthird
    obtain ⟨hrejected, hd₃'⟩ := hthird
    obtain ⟨before₄, after₄, m₄, m₄', rfl, hon₄, -, -, hp₄, -, hstep₄, -⟩ :=
      hd₃'.next (hs₃.step hstep₃) (ha₃.step hstep₃) hrun₃ hback
    rw [hrejected] at hp₄
    obtain ⟨m₅, hstep₅, hidle, hanswer⟩ := answer_of_rejected hp₄
    rw [hstep₄] at hstep₅
    cases hstep₅
    have hname : m₃.name = m.name := by
      rw [hon₃.name, step_name hstep₂, hon₂.name, step_name hstep₁, hon₁.name]
    refine ⟨before, _, after₄, m₁, m₁', m₄', ?_, hon₁, hp₁, hfree, hstep₁, howner,
      hpath.trans (hon₄.trans (Onward.one hstep₄)), ?_⟩
    · simp
    · rw [if_neg hr, ← hname]
      exact ⟨hidle, hanswer⟩

/-! ## Yields -/

/-- What the waiters of a lock can rely on, and a task that yields to them. -/
structure Hospitable (m : LockMachine α) : Prop where
  /-- The lock counts the users that have entered the count and not left it. -/
  counted : m.state.waiters = m.counted
  /-- Whoever leaves the count is in it. -/
  uncounted : ∀ i r, m.phase i = .granted r → 0 < m.state.waiters
  /-- Nobody sleeps while no user is counted. -/
  awake : ∀ i task, m.phase i = .sleeping task → 0 < m.state.waiters
  /-- A yield that gave the value up while a user was counted returns after that user was served. -/
  served : ∀ i task m₁ moves m₂, m.phase i = .yielding task → m.step? (.proceed i) = some m₁ →
    m₁.run moves = some m₂ → m₂.phase i = .inside (.long task) →
    ∀ j, (m.phase j).isCounted = true → ∃ r, m.phase j = .waiting r ∧ Served m₁ moves j r task

/-- However the users of a lock interleave, its waiters are counted and served. -/
theorem waiters_served {name : String} {value : α} {moves : List (LockMove α)}
    {m : LockMachine α} (hrun : ({ name, value } : LockMachine α).run moves = some m) :
    m.Hospitable := by
  have hs : m.Sound := (sound_initial name value).run hrun
  have ha : m.Attended := (attended_initial name value).run hrun
  refine ⟨ha.waiters, ?_, ha.awake, ?_⟩
  · intro i r hp
    rw [ha.waiters]
    exact counted_pos (by rw [hp]; rfl)
  · intro i task m₁ moves m₂ hp hstep hrun₁ hback j hj
    have hlt : i < m.agents.size := lt_size_of_phase hp (by simp)
    have hne : j ≠ i := by
      rintro rfl
      simp [hp, Phase.isCounted] at hj
    -- the yielding user owns the value, so a counted user does not
    have hwaiting : ∃ r, m.phase j = .waiting r := by
      cases hpj : m.phase j with
      | waiting r => exact ⟨r, rfl⟩
      | granted r =>
        exact absurd (hs.eq_of_owns (by rw [standing, hpj]; rfl) (by rw [standing, hp]; rfl)) hne
      | _ => simp [hpj, Phase.isCounted] at hj
    obtain ⟨r, hpj⟩ := hwaiting
    have hm₁ : m₁ = { m.move i (.draining task) with owner := none } := by
      change m.proceed? i = some m₁ at hstep
      rw [proceed?, hp] at hstep
      exact (Option.some.inj hstep).symm
    have hj₁ : m₁.phase j = .waiting r := by
      rw [hm₁]
      show (m.move i (.draining task)).phase j = _
      rw [phase_move m _ _ hlt, if_neg hne, hpj]
    have hi₁ : m₁.phase i = .draining task := by
      rw [hm₁]
      show (m.move i (.draining task)).phase i = _
      rw [phase_move m _ _ hlt, if_pos rfl]
    have hd : Detains m₁ j i task :=
      ⟨by rw [hj₁]; rfl, .inl ⟨by rw [hj₁]; rfl, by rw [hi₁]; exact .inl rfl⟩⟩
    exact ⟨r, hpj, hd.served (hs.step hstep) (ha.step hstep) hj₁ hrun₁ hback⟩

/-- A long task that is about to yield, with a reader and a writer in the count. -/
def twoWaiters : List (LockMove Nat) :=
  [.join, .join, .join, .call 1 .write, .proceed 1, .call 0 (.long "layout"), .proceed 0, .proceed 0,
   .proceed 0, .proceed 0, .proceed 1, .proceed 1, .call 2 .read, .proceed 2, .proceed 2, .yield 0]

/-- The task sleeps, the writer is turned away, the reader wakes the task and leaves, and the task
takes the value back. -/
def bothServed : List (LockMove Nat) :=
  [.proceed 0, .proceed 1, .proceed 1, .proceed 1, .proceed 1, .proceed 2] ++ ([.proceed 2] ++
    [.proceed 2, .proceed 0, .release 2, .proceed 2, .proceed 0, .proceed 0])

/-- A lock with a registered task, a writer and a reader. -/
def crowd (waiters : Nat) (owner : Option Nat) (task writer reader : Agent) : LockMachine Nat where
  name := "State"
  value := 0
  state := ⟨some "layout", false, waiters⟩
  owner := owner
  agents := #[task, writer, reader]
  told := #[some "layout"]

/-- A yield that finds two users counted, and returns. -/
theorem waiters_served_two : ∃ m m₁ m₂ : LockMachine Nat,
    ({ name := "State", value := 0 } : LockMachine Nat).run twoWaiters = some m ∧
    m.phase 0 = .yielding "layout" ∧ m.counted = 2 ∧ m.step? (.proceed 0) = some m₁ ∧
    m₁.run bothServed = some m₂ ∧ m₂.phase 0 = .inside (.long "layout") ∧ m.Hospitable := by
  have hrun : ({ name := "State", value := 0 } : LockMachine Nat).run twoWaiters = some (crowd 2
      (some 0) ⟨.yielding "layout", .none⟩ ⟨.waiting .write, .none⟩ ⟨.waiting .read, .none⟩) := rfl
  -- the reader leaves the count as the last one, and wakes the task
  have hwake : (crowd 1 (some 2) ⟨.sleeping "layout", .none⟩
      ⟨.idle, .refused (.busy "State" (some "layout"))⟩ ⟨.granted .read, .none⟩).step? (.proceed 2)
      = some (crowd 0 (some 2) ⟨.draining "layout", .none⟩
        ⟨.idle, .refused (.busy "State" (some "layout"))⟩ ⟨.entering .read, .none⟩) := by
    simp [crowd, step?, proceed?, phase, uncount, wake, move, Phase.woken]
  have hbefore : (crowd 2 none ⟨.draining "layout", .none⟩ ⟨.waiting .write, .none⟩
      ⟨.waiting .read, .none⟩).run [.proceed 0, .proceed 1, .proceed 1, .proceed 1, .proceed 1,
        .proceed 2] = some (crowd 1 (some 2) ⟨.sleeping "layout", .none⟩
        ⟨.idle, .refused (.busy "State" (some "layout"))⟩ ⟨.granted .read, .none⟩) := rfl
  refine ⟨_, _, crowd 0 (some 0) ⟨.inside (.long "layout"), .yielded true⟩
    ⟨.idle, .refused (.busy "State" (some "layout"))⟩ ⟨.idle, .none⟩, hrun, rfl, rfl, rfl, ?_, rfl,
    waiters_served hrun⟩
  show (crowd 2 none _ _ _).run bothServed = _
  rw [bothServed, run_append, hbefore, Option.bind_some, run_append, run_singleton, hwake,
    Option.bind_some]
  rfl

end LockMachine

end LiveGraph
