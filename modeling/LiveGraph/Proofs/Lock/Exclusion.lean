import LiveGraph.Proofs.Lock.Step

/-!
# A long task excludes the others

However the users of a lock interleave, the value has one owner, at most one user has a long task and
it is the registered one, and nobody is in a short writing section while a task is registered. So a
long task may give the value up for a while, and finds it as it was.
-/

namespace LiveGraph

/-- The owner, the registered task and the standings of all users fit each other. -/
structure Guarded (standing : Nat → Standing) (owner : Option Nat) (task : Option String) :
    Prop where
  owner_iff : ∀ i, owner = some i ↔ (standing i).owns = true
  task_eq : ∀ i t, (standing i).task = some t → task = some t
  unique : ∀ i j t u, (standing i).task = some t → (standing j).task = some u → i = j
  no_writer : ∀ i, (standing i).writes = true → task = none
  owns_of_writes : ∀ i, (standing i).writes = true → (standing i).owns = true

namespace Guarded

variable {s s' : Nat → Standing} {owner owner' : Option Nat} {task task' : Option String}

/-- At most one user owns the value. -/
theorem eq_of_owns (h : Guarded s owner task) {i j : Nat} (hi : (s i).owns = true)
    (hj : (s j).owns = true) : i = j := by
  have howner := (h.owner_iff i).2 hi
  rw [(h.owner_iff j).2 hj] at howner
  cases howner
  rfl

/-- A user that keeps the value, or stays without it, leaves the owner. -/
theorem owner_iff_of_owns_eq (h : Guarded s owner task) {i : Nat} (hi : (s' i).owns = (s i).owns)
    (hothers : ∀ j, j ≠ i → s' j = s j) (j : Nat) : owner = some j ↔ (s' j).owns = true := by
  by_cases hji : j = i
  · subst hji
    rw [hi]
    exact h.owner_iff j
  · rw [hothers j hji]
    exact h.owner_iff j

/-- A user that owned the value leaves it without owner. -/
theorem owner_iff_of_surrender (h : Guarded s owner task) {i : Nat} (hi : (s i).owns = true)
    (hi' : (s' i).owns = false) (hothers : ∀ j, j ≠ i → s' j = s j) (j : Nat) :
    none = some j ↔ (s' j).owns = true := by
  constructor
  · intro hnone
    cases hnone
  · intro hj
    by_cases hji : j = i
    · subst hji
      rw [hi'] at hj
      cases hj
    · rw [hothers j hji] at hj
      exact absurd (h.eq_of_owns hj hi) hji

/-- A user that registers no task and enters no writing section while one is registered. -/
theorem retain (h : Guarded s owner task) {i : Nat}
    (howner : ∀ j, owner' = some j ↔ (s' j).owns = true)
    (htask : (s' i).task = (s i).task ∨ (s' i).task = none)
    (hwrites : (s' i).writes = true → task = none ∧ (s' i).owns = true)
    (hothers : ∀ j, j ≠ i → s' j = s j) : Guarded s' owner' task := by
  -- a user that has a task afterwards had it before
  have hback : ∀ j t, (s' j).task = some t → (s j).task = some t := by
    intro j t hj
    by_cases hji : j = i
    · subst hji
      rcases htask with hsame | hnone
      · rw [← hsame]
        exact hj
      · rw [hnone] at hj
        cases hj
    · rw [← hothers j hji]
      exact hj
  refine ⟨howner, fun j t hj => h.task_eq j t (hback j t hj),
    fun j k t u hj hk => h.unique j k t u (hback j t hj) (hback k u hk), fun j hj => ?_,
    fun j hj => ?_⟩
  · by_cases hji : j = i
    · subst hji
      exact (hwrites hj).1
    · rw [hothers j hji] at hj
      exact h.no_writer j hj
  · by_cases hji : j = i
    · subst hji
      exact (hwrites hj).2
    · rw [hothers j hji] at hj ⊢
      exact h.owns_of_writes j hj

/-- Every turn keeps owner, task and standings in step. -/
theorem turn (h : Guarded s owner task) {fails : Bool} {i : Nat} {told : List (Option String)}
    (hturn : Standing.Turn fails i (s i) owner task (s' i) owner' task' told)
    (hothers : ∀ j, j ≠ i → s' j = s j) : Guarded s' owner' task' := by
  generalize hold : s i = old at hturn
  generalize hnew : s' i = new at hturn
  cases hturn with
  | keep =>
    have hsame : s' = s := by
      funext j
      by_cases hji : j = i
      · rw [hji, hold, hnew]
      · exact hothers j hji
    rw [hsame]
    exact h
  -- the value was free, so the new owner is the only one
  | acquire _ _ hfree =>
    refine h.retain (i := i) (fun j => ?_) ?_ ?_ hothers
    · by_cases hji : j = i
      · subst hji
        rw [hnew]
        exact ⟨fun _ => rfl, fun _ => rfl⟩
      · rw [hothers j hji, ← h.owner_iff j]
        constructor
        · rintro ⟨⟩
          exact absurd rfl hji
        · rintro ⟨⟩
    · rw [hnew, hold]
      exact .inl rfl
    · rw [hnew]
      intro hw
      exact ⟨h.no_writer i (by rw [hold]; exact hw), rfl⟩
  | surrender _ _ _ howns hwrites _ =>
    refine h.retain (i := i) (h.owner_iff_of_surrender (by rw [hold]; exact howns)
      (by rw [hnew]) hothers) ?_ ?_ hothers
    · rw [hnew, hold]
      exact .inl rfl
    · rw [hnew]
      intro hw
      rw [hwrites] at hw
      cases hw
  | abort _ _ _ howns _ =>
    refine h.retain (i := i) (h.owner_iff_of_surrender (by rw [hold]; exact howns)
      (by rw [hnew]) hothers) ?_ ?_ hothers
    · rw [hnew]
      exact .inr rfl
    · rw [hnew]
      intro hw
      cases hw
  | enter =>
    refine h.retain (i := i) (h.owner_iff_of_owns_eq (by rw [hnew, hold]) hothers) ?_ ?_ hothers
    · rw [hnew]
      exact .inr rfl
    · rw [hnew]
      exact fun _ => ⟨rfl, rfl⟩
  | dismiss =>
    refine h.retain (i := i) (h.owner_iff_of_owns_eq (by rw [hnew, hold]) hothers) ?_ ?_ hothers
    · rw [hnew]
      exact .inr rfl
    · rw [hnew]
      intro hw
      cases hw
  | start name =>
    -- no task is registered yet, so no user has one
    have howns : (s i).owns = true := by rw [hold]
    have hnone : ∀ j t, (s j).task ≠ some t := by
      intro j t hj
      cases h.task_eq j t hj
    have honly : ∀ j t, (s' j).task = some t → j = i := by
      intro j t hj
      by_cases hji : j = i
      · exact hji
      · rw [hothers j hji] at hj
        exact absurd hj (hnone j t)
    have hquiet : ∀ j, (s' j).writes ≠ true := by
      intro j hj
      by_cases hji : j = i
      · rw [hji, hnew] at hj
        cases hj
      · -- a writer owns the value, and so does the user that registers the task
        rw [hothers j hji] at hj
        exact hji (h.eq_of_owns (h.owns_of_writes j hj) howns)
    refine ⟨h.owner_iff_of_owns_eq (by rw [hnew, hold]) hothers, fun j t hj => ?_,
      fun j k t u hj hk => (honly j t hj).trans (honly k u hk).symm,
      fun j hj => absurd hj (hquiet j), fun j hj => absurd hj (hquiet j)⟩
    rw [honly j t hj, hnew] at hj
    exact hj
  | finish name =>
    -- the task that goes was the only one
    have htask : (s i).task = some name := by rw [hold]
    have hnone : ∀ j t, (s' j).task ≠ some t := by
      intro j t hj
      by_cases hji : j = i
      · rw [hji, hnew] at hj
        cases hj
      · rw [hothers j hji] at hj
        exact hji (h.unique j i t name hj htask)
    refine ⟨h.owner_iff_of_owns_eq (by rw [hnew, hold]) hothers,
      fun j t hj => absurd hj (hnone j t), fun j k t u hj _ => absurd hj (hnone j t),
      fun _ _ => rfl, fun j hj => ?_⟩
    by_cases hji : j = i
    · rw [hji, hnew]
    · rw [hothers j hji] at hj ⊢
      exact h.owns_of_writes j hj
  | tell _ _ _ howed =>
    refine h.retain (i := i) (h.owner_iff_of_owns_eq (by rw [hnew, hold]) hothers) ?_ ?_ hothers
    · rw [hnew, hold]
      exact .inl rfl
    · rw [hnew]
      intro hw
      exact ⟨h.no_writer i (by rw [hold]; exact hw), by
        rw [← hold]; exact h.owns_of_writes i (by rw [hold]; exact hw)⟩

end Guarded

namespace LockMachine

variable {α : Type}

/-- Owner, task and users of the lock fit each other. -/
def Sound (m : LockMachine α) : Prop := Guarded m.standing m.owner m.state.task

/-- At the start nobody owns the value and no task is registered. -/
theorem sound_initial (name : String) (value : α) : Sound { name, value } where
  owner_iff i := by
    constructor
    · intro h
      cases h
    · intro h
      cases h
  task_eq i t h := by cases h
  unique i j t u h := by cases h
  no_writer i h := by cases h
  owns_of_writes i h := by cases h

/-- Every step keeps owner, task and standings in agreement. -/
theorem Sound.step {m m' : LockMachine α} {mv : LockMove α} (h : m.Sound)
    (hs : m.step? mv = some m') : m'.Sound := by
  rcases step_cases hs with ⟨i, f, s, -, -, -, rfl⟩ | ⟨-, hsame⟩ | ⟨i, told, -, hstep⟩
  · exact h
  · rw [Sound, hsame.standing_eq, hsame.owner, hsame.task]
    exact h
  · exact Guarded.turn h hstep.turn fun j hj => hstep.standing_eq hj

/-- They agree in every run. -/
theorem Sound.run {m m' : LockMachine α} {moves : List (LockMove α)} (h : m.Sound)
    (hrun : m.run moves = some m') : m'.Sound := by
  induction moves generalizing m with
  | nil =>
    cases hrun
    exact h
  | cons mv moves ih =>
    obtain ⟨m₁, hstep, hrest⟩ := run_cons hrun
    exact ih (h.step hstep) hrest

/-! ## The value -/

/-- While a task is registered, only its user changes the value. -/
theorem Sound.value_eq {m m' : LockMachine α} {mv : LockMove α} {task : String} (h : m.Sound)
    (htask : m.state.task = some task) (hs : m.step? mv = some m') :
    m'.value = m.value ∨ ∃ i f, mv = .update i f ∧ m.phase i = .inside (.long task) := by
  rcases step_cases hs with ⟨i, f, s, rfl, hp, hwrite, rfl⟩ | ⟨-, hsame⟩ | ⟨i, told, -, hstep⟩
  · right
    refine ⟨i, f, rfl, ?_⟩
    cases s with
    | read => cases hwrite
    | write =>
      have hnone := h.no_writer i (by rw [standing, hp]; rfl)
      rw [htask] at hnone
      cases hnone
    | long name =>
      have hname := h.task_eq i name (by rw [standing, hp]; rfl)
      rw [htask] at hname
      cases hname
      exact hp
  · exact .inl hsame.value
  · exact .inl hstep.value

end LockMachine

namespace Phase

/-- The user of a task has called to yield and not returned yet. -/
def Yields (task : String) (p : Phase) : Prop :=
  p = yielding task ∨ p = draining task ∨ p = sleeping task ∨ p = returning task ∨ p = judging task

theorem Yields.task_eq {p : Phase} {task : String} (h : p.Yields task) :
    p.standing.task = some task := by
  rcases h with rfl | rfl | rfl | rfl | rfl <;> rfl

theorem Yields.woken {p : Phase} {task : String} (h : p.Yields task) : p.woken.Yields task := by
  rcases h with rfl | rfl | rfl | rfl | rfl
  · exact .inl rfl
  · exact .inr (.inl rfl)
  · exact .inr (.inl rfl)
  · exact .inr (.inr (.inr (.inl rfl)))
  · exact .inr (.inr (.inr (.inr rfl)))

theorem Yields.ne_inside {p : Phase} {task : String} (h : p.Yields task) (s : Section) :
    p ≠ inside s := by
  rcases h with rfl | rfl | rfl | rfl | rfl <;> nofun

end Phase

namespace LockMachine

variable {α : Type}

/-- A user that yields goes on to do so, or returns to its task. -/
theorem yields_step {m m' : LockMachine α} {mv : LockMove α} {i : Nat} {task : String}
    (hp : (m.phase i).Yields task) (hs : m.step? mv = some m') :
    (m'.phase i).Yields task ∨ m'.phase i = .inside (.long task) := by
  by_cases hi : mv.agent? = some i
  · have hlt : i < m.agents.size := by
      apply lt_size_of_phase rfl
      rcases hp with hp | hp | hp | hp | hp <;> rw [hp] <;> nofun
    have hmv : mv = .proceed i := by
      apply eq_proceed hs hi
      all_goals rcases hp with hp | hp | hp | hp | hp <;> rw [hp] <;> nofun
    subst hmv
    change m.proceed? i = some m' at hs
    rw [proceed?] at hs
    have hnext : ∀ p answer, (m.move i p answer).phase i = p := by
      intro p answer
      rw [phase_move m p answer hlt, if_pos rfl]
    -- the five phases of a yield in their order; the last leads back inside
    rcases hp with hp | hp | hp | hp | hp
    · rw [hp] at hs
      cases hs
      left
      show ((m.move i (.draining task)).phase i).Yields task
      rw [hnext]
      exact .inr (.inl rfl)
    · rw [hp] at hs
      cases hs
      left
      rw [hnext]
      split
      · exact .inr (.inr (.inr (.inl rfl)))
      · exact .inr (.inr (.inl rfl))
    · rw [hp] at hs
      cases hs
    · rw [hp] at hs
      dsimp only at hs
      split at hs
      · cases hs
        left
        show ((m.move i (.judging task)).phase i).Yields task
        rw [hnext]
        exact .inr (.inr (.inr (.inr rfl)))
      · cases hs
    · rw [hp] at hs
      cases hs
      right
      rw [hnext]
  · rcases (step_frame hs hi).1 with hsame | hwoken
    · rw [hsame]
      exact .inl hp
    · rw [hwoken]
      exact .inl hp.woken

/-- While a user yields, nobody changes the value. -/
theorem Sound.value_of_yields {m m' : LockMachine α} {mv : LockMove α} {i : Nat} {task : String}
    (h : m.Sound) (hp : (m.phase i).Yields task) (hs : m.step? mv = some m') :
    m'.value = m.value := by
  have htask := h.task_eq i task hp.task_eq
  rcases h.value_eq htask hs with hsame | ⟨j, f, -, hj⟩
  · exact hsame
  · -- who is inside the task is the user that yields
    have hji : j = i := h.unique j i task task (by rw [standing, hj]; rfl) hp.task_eq
    subst hji
    exact absurd hj (hp.ne_inside _)

/-- Up to its return, a yield finds the value as it was. -/
theorem Sound.value_of_run {m m' : LockMachine α} {moves : List (LockMove α)} {i : Nat}
    {task : String} (h : m.Sound) (hp : (m.phase i).Yields task) (hrun : m.run moves = some m')
    (hbefore : ∀ before after mid, moves = before ++ after → after ≠ [] →
      m.run before = some mid → ∀ s, mid.phase i ≠ .inside s) : m'.value = m.value := by
  induction moves generalizing m with
  | nil =>
    cases hrun
    rfl
  | cons mv moves ih =>
    obtain ⟨m₁, hstep, hrest⟩ := run_cons hrun
    have hrun₁ : ∀ before, m₁.run before = m.run (mv :: before) := by
      intro before
      rw [LockMachine.run, LockMachine.run, List.foldlM_cons, hstep]
      rfl
    have hvalue : m₁.value = m.value := h.value_of_yields hp hstep
    cases hmoves : moves with
    | nil =>
      subst hmoves
      cases hrest
      exact hvalue
    | cons mv' moves' =>
      -- not yet back inside, the user is still in its yield
      have hp₁ : (m₁.phase i).Yields task := by
        rcases yields_step hp hstep with hyields | hinside
        · exact hyields
        · have hout := hbefore [mv] moves m₁ rfl (hmoves ▸ List.cons_ne_nil _ _)
            (by rw [← hrun₁]; rfl)
          exact absurd hinside (hout _)
      rw [← hvalue]
      apply ih (h.step hstep) hp₁ hrest
      intro before after mid hsplit hafter hmid
      apply hbefore (mv :: before) after mid (by rw [hsplit]; rfl) hafter
      rw [← hrun₁]
      exact hmid

/-! ## Users that are turned away -/

/-- The user was turned away: it has its answer, or is about to get it. -/
def TurnedAway (m : LockMachine α) (i : Nat) (e : GraphError) : Prop :=
  m.phase i = .idle ∧ m.answer i = .refused e ∨ m.phase i = .rejected e

/-- A user that was turned away gets its answer by its next step. -/
theorem answer_of_rejected {m : LockMachine α} {i : Nat} {e : GraphError}
    (hp : m.phase i = .rejected e) :
    ∃ m', m.step? (.proceed i) = some m' ∧ m'.phase i = .idle ∧ m'.answer i = .refused e := by
  have hlt : i < m.agents.size := lt_size_of_phase hp (by simp)
  refine ⟨{ m.move i .idle (.refused e) with owner := none }, ?_, ?_, ?_⟩
  · show m.proceed? i = _
    rw [proceed?, hp]
  · show (m.move i .idle (.refused e)).phase i = .idle
    rw [phase_move m _ _ hlt, if_pos rfl]
  · show (m.move i .idle (.refused e)).answer i = .refused e
    rw [answer, getElem?_move m _ _ hlt, if_pos rfl]

/-- The look for a long task turns a user away if there is one, with the name of the task. -/
theorem turnedAway_of_task {m : LockMachine α} {i : Nat} {r : Request} {task : String}
    (hr : r ≠ .read) (hp : m.phase i = .checking r ∨ m.phase i = .entering r)
    (htask : m.state.task = some task) :
    ∃ m', m.step? (.proceed i) = some m' ∧ m'.TurnedAway i (.busy m.name (some task)) := by
  rcases hp with hp | hp
  · have hlt : i < m.agents.size := lt_size_of_phase hp (by simp)
    refine ⟨m.refuse i (some task), ?_, .inl ⟨?_, ?_⟩⟩
    · show m.proceed? i = _
      rw [proceed?, hp]
      dsimp only
      rw [htask]
    · rw [refuse, phase_move m _ _ hlt, if_pos rfl]
    · rw [refuse, answer, getElem?_move m _ _ hlt, if_pos rfl]
  · have hlt : i < m.agents.size := lt_size_of_phase hp (by simp)
    refine ⟨m.enter i r, ?_, .inr ?_⟩
    · show m.proceed? i = _
      rw [proceed?, hp]
    · rw [enter_busy hr htask, phase_move m _ _ hlt, if_pos rfl]

/-- A user that is turned away stays so until it calls again. -/
theorem TurnedAway.step {m m' : LockMachine α} {mv : LockMove α} {i : Nat} {e : GraphError}
    (h : m.TurnedAway i e) (hs : m.step? mv = some m') (hcall : ∀ r, mv ≠ .call i r) :
    m'.TurnedAway i e := by
  by_cases hi : mv.agent? = some i
  · rcases h with ⟨hidle, -⟩ | hp
    · obtain ⟨r, hmv⟩ := eq_call hs hi hidle
      exact absurd hmv (hcall r)
    · have hmv : mv = .proceed i := by
        apply eq_proceed hs hi
        all_goals rw [hp]; nofun
      subst hmv
      obtain ⟨m₁, hs₁, hanswer⟩ := answer_of_rejected hp
      rw [hs₁] at hs
      cases hs
      exact .inl hanswer
  · obtain ⟨hphase, hanswer⟩ := step_frame hs hi
    rw [TurnedAway, hanswer]
    rcases h with ⟨hidle, hrefused⟩ | hp
    · rw [hidle] at hphase
      exact .inl ⟨hphase.elim id id, hrefused⟩
    · rw [hp] at hphase
      exact .inr (hphase.elim id id)

theorem TurnedAway.run {m m' : LockMachine α} {moves : List (LockMove α)} {i : Nat} {e : GraphError}
    (h : m.TurnedAway i e) (hrun : m.run moves = some m') (hcall : ∀ r, .call i r ∉ moves) :
    m'.TurnedAway i e := by
  induction moves generalizing m with
  | nil =>
    cases hrun
    exact h
  | cons mv moves ih =>
    obtain ⟨m₁, hstep, hrest⟩ := run_cons hrun
    have hhead : ∀ r, mv ≠ .call i r := by
      rintro r rfl
      exact hcall r List.mem_cons_self
    exact ih (h.step hstep hhead) hrest fun r hin => hcall r (List.mem_cons_of_mem _ hin)

/-! ## Exclusion -/

/-- What a long task can rely on, and what the others get to see of it, in one state of a lock. -/
structure Exclusive (m : LockMachine α) : Prop where
  /-- At most one user has a long task, and it is the registered one. -/
  unique : ∀ i j t u, (m.standing i).task = some t → (m.standing j).task = some u →
    i = j ∧ m.state.task = some t
  /-- While a user is in a writing section, no task is registered. -/
  no_task : ∀ i, m.phase i = .inside .write → m.state.task = none
  /-- While a task is registered, nobody is let into a writing section, and nobody gets a long task
  who does not have it already. -/
  no_entry : ∀ t mv m', m.state.task = some t → m.step? mv = some m' → ∀ i,
    m'.phase i ≠ .inside .write ∧ ∀ u, (m'.standing i).task = some u → (m.standing i).task = some u
  /-- While a task is registered, only its user changes the value. -/
  value_kept : ∀ t mv m', m.state.task = some t → m.step? mv = some m' → m'.value ≠ m.value →
    ∃ i f, mv = .update i f ∧ m.phase i = .inside (.long t)
  /-- When a yield returns, the value is as it was when it was called. -/
  yield_kept : ∀ i t m₁ moves m₂, m.phase i = .inside (.long t) → m.step? (.yield i) = some m₁ →
    m₁.run moves = some m₂ →
    (∀ before after mid, moves = before ++ after → after ≠ [] →
      m₁.run before = some mid → ∀ s, mid.phase i ≠ .inside s) →
    m₂.value = m.value
  /-- A writer or a long task that sees a registered task is turned away with the name of the task,
  whatever the others do until it gets its answer. -/
  busy : ∀ i r t, r ≠ .read → m.phase i = .checking r ∨ m.phase i = .entering r →
    m.state.task = some t → ∃ m₁, m.step? (.proceed i) = some m₁ ∧
      ∀ moves m₂, m₁.run moves = some m₂ → (∀ r', .call i r' ∉ moves) →
        m₂.phase i = .idle ∧ m₂.answer i = .refused (.busy m.name (some t)) ∨
        ∃ m₃, m₂.step? (.proceed i) = some m₃ ∧ m₃.phase i = .idle ∧
          m₃.answer i = .refused (.busy m.name (some t))

/-- While a task is registered, a step gives nobody a long task or a writing section. -/
theorem Sound.no_entry {m m' : LockMachine α} {mv : LockMove α} {task : String} (h : m.Sound)
    (htask : m.state.task = some task) (hs : m.step? mv = some m') (i : Nat) :
    m'.phase i ≠ .inside .write ∧
      ∀ u, (m'.standing i).task = some u → (m.standing i).task = some u := by
  have hkept : ((m'.standing i).writes = true → (m.standing i).writes = true) ∧
      ∀ u, (m'.standing i).task = some u → (m.standing i).task = some u := by
    rcases step_cases hs with ⟨j, f, s, -, -, -, rfl⟩ | ⟨-, hsame⟩ | ⟨j, told, -, hstep⟩
    · exact ⟨id, fun _ => id⟩
    · rw [hsame.standing_eq]
      exact ⟨id, fun _ => id⟩
    · by_cases hij : i = j
      · subst hij
        have hturn := hstep.turn
        rw [htask] at hturn
        exact hturn.no_entry
      · rw [hstep.standing_eq hij]
        exact ⟨id, fun _ => id⟩
  refine ⟨fun hp => ?_, hkept.2⟩
  have hnone := h.no_writer i (hkept.1 (by rw [standing, hp]; rfl))
  rw [htask] at hnone
  cases hnone

/-- In every state that users can lead a lock to, a long task excludes the others. -/
theorem long_task_exclusive {name : String} {value : α} {moves : List (LockMove α)}
    {m : LockMachine α} (hrun : ({ name, value } : LockMachine α).run moves = some m) :
    m.Exclusive := by
  have h : m.Sound := (sound_initial name value).run hrun
  refine ⟨?_, ?_, ?_, ?_, ?_, ?_⟩
  · intro i j t u hi hj
    exact ⟨h.unique i j t u hi hj, h.task_eq i t hi⟩
  · intro i hp
    exact h.no_writer i (by rw [standing, hp]; rfl)
  · intro t mv m' htask hs
    exact h.no_entry htask hs
  · intro t mv m' htask hs hne
    exact (h.value_eq htask hs).resolve_left hne
  · intro i t m₁ moves m₂ hp hs hrun₁ hbefore
    -- the yield itself is the first step, and leaves the value
    have hyield : m₁ = m.move i (.yielding t) := by
      rw [step?, hp] at hs
      exact (Option.some.inj hs).symm
    have hlt : i < m.agents.size := lt_size_of_phase hp (by simp)
    have hp₁ : (m₁.phase i).Yields t := by
      rw [hyield, phase_move m _ _ hlt, if_pos rfl]
      exact .inl rfl
    have hvalue : m₁.value = m.value := by
      rw [hyield]
      rfl
    rw [← hvalue]
    exact (h.step hs).value_of_run hp₁ hrun₁ hbefore
  · intro i r t hr hp htask
    obtain ⟨m₁, hs, haway⟩ := turnedAway_of_task hr hp htask
    refine ⟨m₁, hs, fun moves m₂ hrun₁ hcall => ?_⟩
    rcases haway.run hrun₁ hcall with hanswer | hrejected
    · exact .inl hanswer
    · exact .inr (answer_of_rejected hrejected)

/-- A task has started, and a writer is about to be turned away. -/
theorem long_task_exclusive_started : ∃ m : LockMachine Nat,
    ({ name := "State", value := 0 } : LockMachine Nat).run [.join, .join, .call 0 (.long "layout"),
      .proceed 0, .proceed 0, .proceed 0, .proceed 0, .call 1 .write] = some m ∧
    m.state.task = some "layout" ∧ m.phase 1 = .checking .write ∧ m.Exclusive := by
  refine ⟨?machine, ?run, ?task, ?phase, long_task_exclusive ?run⟩
  case run => rfl
  case task => rfl
  case phase => rfl

end LockMachine

end LiveGraph
