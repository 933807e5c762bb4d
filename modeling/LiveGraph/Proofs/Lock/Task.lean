import LiveGraph.Proofs.Lock.History

/-!
# The course of a long task

The user of a long task asks for its section, yields from time to time, and ends the task, each of
these in several steps between which others move. This module says what each step does to the user
itself, and what the others cannot do meanwhile: as long as the user owns the value or has its task
registered, nobody else changes the value, and no request to stop the task is lost.
-/

namespace LiveGraph

namespace Phase

/-- The user has asked for the section of a long task and is neither in it nor back from the call. The
resource that is locked has the given name. -/
inductive Asks (resource task : String) : Phase → Prop
  | checking : Asks resource task (.checking (.long task))
  | trying : Asks resource task (.trying (.long task))
  | announcing : Asks resource task (.announcing (.long task))
  | waiting : Asks resource task (.waiting (.long task))
  | granted : Asks resource task (.granted (.long task))
  | entering : Asks resource task (.entering (.long task))
  | starting : Asks resource task (.starting task)
  | rejected (other : String) : Asks resource task (.rejected (.busy resource (some other)))

/-- The user ends a long task and has not told the observers yet. -/
inductive Ends (task : String) : Phase → Prop
  | ending : Ends task (.ending task)
  | telling : Ends task (.telling task)

variable {p : Phase} {resource task : String}

/-- A user that asks for a task does not sleep. -/
theorem Asks.woken_eq (h : p.Asks resource task) : p.woken = p := by
  cases h <;> rfl

theorem Asks.ne_inside (h : p.Asks resource task) (s : Section) : p ≠ .inside s := by
  cases h <;> simp

theorem Asks.ne_idle (h : p.Asks resource task) : p ≠ .idle := by
  cases h <;> simp

/-- A user that ends its task does not sleep. -/
theorem Ends.woken_eq (h : p.Ends task) : p.woken = p := by
  cases h <;> rfl

theorem Ends.ne_idle (h : p.Ends task) : p ≠ .idle := by
  cases h <;> simp

theorem Ends.ne_inside (h : p.Ends task) (s : Section) : p ≠ .inside s := by
  cases h <;> simp

/-- A user that ends its task owns the value until the end. -/
theorem Ends.owns (h : p.Ends task) : p.owns = true := by
  cases h <;> rfl

theorem Yields.ne_idle (h : p.Yields task) : p ≠ .idle := by
  rcases h with rfl | rfl | rfl | rfl | rfl <;> simp

end Phase

/-- Who comes to own the value takes it when nobody owns it. -/
theorem Standing.Turn.owner_eq_none {fails : Bool} {i : Nat} {old new : Standing}
    {owner owner' : Option Nat} {task task' : Option String} {told : List (Option String)}
    (h : Turn fails i old owner task new owner' task' told) (hnot : old.owns = false)
    (howns : new.owns = true) : owner = none := by
  cases h with
  | acquire => rfl
  | keep =>
    rw [hnot] at howns
    cases howns
  | surrender => cases howns
  | abort => cases howns
  | enter => cases hnot
  | dismiss => cases hnot
  | start => cases hnot
  | finish => cases hnot
  | tell =>
    rw [hnot] at howns
    cases howns

namespace LockMachine

variable {α : Type} {m m' : LockMachine α} {i : Nat} {task : String}

/-! ## The steps of the user -/

/-- Only an update changes the value. -/
theorem step_value {mv : LockMove α} (h : m.step? mv = some m') (hmv : ∀ i f, mv ≠ .update i f) :
    m'.value = m.value := by
  rcases step_cases h with ⟨i, f, s, rfl, -⟩ | ⟨-, hsame⟩ | ⟨i, told, -, hstep⟩
  · exact absurd rfl (hmv i f)
  · exact hsame.value
  · exact hstep.value

/-- A user that asks for the section of a long task goes on to do so, or is let in and tells the
observers, or is turned away. -/
theorem asks_proceed (hp : (m.phase i).Asks m.name task) (h : m.step? (.proceed i) = some m') :
    (m.phase i ≠ .starting task ∧ (m'.phase i).Asks m.name task ∧ m'.told = m.told) ∨
    (m.phase i = .starting task ∧ m'.phase i = .inside (.long task) ∧
      m'.told = m.told.push (some task)) ∨
    ∃ other, m'.phase i = .idle ∧ m'.answer i = .refused (.busy m.name (some other)) ∧
      m'.told = m.told := by
  have hlt : i < m.agents.size := lt_size_of_phase rfl hp.ne_idle
  have hphase : ∀ p answer, (m.move i p answer).phase i = p := by
    intro p answer
    rw [phase_move m p answer hlt, if_pos rfl]
  have hanswer : ∀ p answer, (m.move i p answer).answer i = answer := by
    intro p answer
    rw [LockMachine.answer, getElem?_move m p answer hlt, if_pos rfl]
  change m.proceed? i = some m' at h
  unfold proceed? at h
  generalize hold : m.phase i = p at hp h
  cases hp with
  | checking =>
    dsimp only at h
    split at h
    · next other _ =>
      cases h
      exact .inr (.inr ⟨other, hphase _ _, hanswer _ _, rfl⟩)
    · cases h
      refine .inl ⟨by simp, ?_, rfl⟩
      rw [hphase]
      exact .trying
  | trying =>
    dsimp only at h
    split at h
    · cases h
      refine .inl ⟨by simp, ?_, rfl⟩
      show ((m.move i _ _).phase i).Asks _ _
      rw [hphase]
      exact .entering
    · next hr =>
      cases hr
    · cases h
      refine .inl ⟨by simp, ?_, rfl⟩
      rw [hphase]
      exact .announcing
  | announcing =>
    cases h
    refine .inl ⟨by simp, ?_, rfl⟩
    show ((m.move i _ _).phase i).Asks _ _
    rw [hphase]
    exact .waiting
  | waiting =>
    dsimp only at h
    split at h
    · cases h
      refine .inl ⟨by simp, ?_, rfl⟩
      show ((m.move i _ _).phase i).Asks _ _
      rw [hphase]
      exact .granted
    · cases h
  | granted =>
    cases h
    -- leaving the count may wake others, which changes neither the number of users nor the news
    have hsize : i < m.uncount.agents.size := by
      rw [uncount_eq]
      split <;> simp [wake, lowered, hlt]
    have htold : m.uncount.told = m.told := by
      rw [uncount_eq]
      split <;> rfl
    refine .inl ⟨by simp, ?_, htold⟩
    rw [phase_move _ _ _ hsize, if_pos rfl]
    exact .entering
  | entering =>
    cases h
    refine .inl ⟨by simp, ?_, ?_⟩
    · cases htask : m.state.task with
      | none =>
        rw [enter_free rfl htask]
        show ((m.move i _ _).phase i).Asks _ _
        rw [hphase]
        exact .starting
      | some other =>
        rw [enter_busy (by simp) htask, hphase]
        exact .rejected other
    · unfold enter
      dsimp only
      split <;> rfl
  | starting =>
    cases h
    exact .inr (.inl ⟨rfl, hphase _ _, rfl⟩)
  | rejected other =>
    cases h
    exact .inr (.inr ⟨other, hphase _ _, hanswer _ _, rfl⟩)

/-- A user that yields goes on to do so, or looks whether it was asked to stop. -/
theorem yields_proceed (hp : (m.phase i).Yields task) (h : m.step? (.proceed i) = some m') :
    (m.phase i ≠ .judging task ∧ (m'.phase i).Yields task ∧ m'.told = m.told) ∨
    (m.phase i = .judging task ∧
      m' = m.move i (.inside (.long task)) (.yielded !m.state.cancelled)) := by
  have hnext := yields_step hp h
  have hlt : i < m.agents.size := lt_size_of_phase rfl hp.ne_idle
  -- short of coming back inside, the user is still yielding
  have hout : ∀ {p answer}, m'.agents = (m.move i p answer).agents → p ≠ .inside (.long task) →
      (m'.phase i).Yields task := by
    intro p answer hagents hne
    refine hnext.resolve_right fun hinside => hne ?_
    rw [phase, hagents, getElem?_move m p answer hlt, if_pos rfl] at hinside
    exact hinside
  change m.proceed? i = some m' at h
  unfold proceed? at h
  rcases hp with hp | hp | hp | hp | hp
  · rw [hp] at h
    cases h
    exact .inl ⟨by simp [hp], hout rfl (by simp), rfl⟩
  · rw [hp] at h
    cases h
    refine .inl ⟨by simp [hp], hout rfl ?_, rfl⟩
    split <;> simp
  · rw [hp] at h
    cases h
  · rw [hp] at h
    dsimp only at h
    split at h
    · cases h
      exact .inl ⟨by simp [hp], hout rfl (by simp), rfl⟩
    · cases h
  · rw [hp] at h
    cases h
    exact .inr ⟨hp, rfl⟩

/-- A user that ends its task takes it off the state, and then tells the observers. -/
theorem ends_proceed (hp : (m.phase i).Ends task) (h : m.step? (.proceed i) = some m') :
    (m.phase i = .ending task ∧ m'.phase i = .telling task ∧ m'.state.task = none ∧
      m'.told = m.told) ∨
    (m.phase i = .telling task ∧ m'.phase i = .leaving ∧ m'.state = m.state ∧
      m'.told = m.told.push none) := by
  have hlt : i < m.agents.size := lt_size_of_phase rfl hp.ne_idle
  have hphase : ∀ p answer, (m.move i p answer).phase i = p := by
    intro p answer
    rw [phase_move m p answer hlt, if_pos rfl]
  change m.proceed? i = some m' at h
  unfold proceed? at h
  generalize m.phase i = p at hp h
  cases hp with
  | ending =>
    cases h
    exact .inl ⟨rfl, hphase _ _, rfl, rfl⟩
  | telling =>
    cases h
    exact .inr ⟨rfl, hphase _ _, rfl, rfl⟩

/-- A user that leaves its section gives the value up. -/
theorem leaving_proceed (hp : m.phase i = .leaving) (h : m.step? (.proceed i) = some m') :
    m'.phase i = .idle ∧ m'.state = m.state ∧ m'.told = m.told := by
  have hlt : i < m.agents.size := lt_size_of_phase hp (by simp)
  change m.proceed? i = some m' at h
  rw [proceed?, hp] at h
  cases h
  refine ⟨?_, rfl, rfl⟩
  show (m.move i .idle).phase i = .idle
  rw [phase_move m _ _ hlt, if_pos rfl]

/-- The user waits for others: for the value, or until nobody is counted as a waiter. -/
def Waits (m : LockMachine α) (i : Nat) : Prop :=
  (∃ task, m.phase i = .sleeping task) ∨
    m.owner ≠ none ∧ ((∃ r, m.phase i = .waiting r) ∨ ∃ task, m.phase i = .returning task)

/-- A user in a call goes on with it unless it waits. -/
theorem proceed_isSome (hidle : m.phase i ≠ .idle) (hinside : ∀ s, m.phase i ≠ .inside s)
    (hwaits : ¬ m.Waits i) : (m.step? (.proceed i)).isSome = true := by
  change (m.proceed? i).isSome = true
  unfold Waits at hwaits
  unfold proceed?
  cases hp : m.phase i with
  | idle => exact absurd hp hidle
  | inside s => exact absurd hp (hinside s)
  | sleeping task => exact absurd (.inl ⟨task, hp⟩) hwaits
  -- the value is free, since the user is not waiting for its owner
  | waiting r =>
    cases howner : m.owner with
    | none => rfl
    | some j => exact absurd (.inr ⟨by simp [howner], .inl ⟨r, hp⟩⟩) hwaits
  | returning task =>
    cases howner : m.owner with
    | none => rfl
    | some j => exact absurd (.inr ⟨by simp [howner], .inr ⟨task, hp⟩⟩) hwaits
  | checking r => cases m.state.task <;> rfl
  | trying r => cases m.owner <;> cases r <;> rfl
  | _ => rfl

/-! ## What the others cannot do -/

/-- The user owns the value, or has its task registered. -/
def Holds (m : LockMachine α) (i : Nat) : Prop :=
  (m.standing i).owns = true ∨ (m.standing i).task.isSome = true

/-- A user that asks for the section of a long task holds the value only if it owns it. -/
theorem owns_of_holds (hp : (m.phase i).Asks m.name task) (h : m.Holds i) :
    (m.standing i).owns = true := by
  rcases h with howns | htask
  · exact howns
  · unfold standing at htask ⊢
    generalize m.phase i = p at hp htask ⊢
    cases hp with
    | starting => rfl
    | _ => cases htask

/-- While a user holds the value, nobody else changes it. -/
theorem Sound.eq_of_update (h : m.Sound) (hi : m.Holds i) {j : Nat} {f : α → α}
    (hs : m.step? (.update j f) = some m') : j = i := by
  obtain ⟨s, hp, hwrite, -⟩ := step_update hs
  have hown : (m.standing j).owns = true := by
    rw [standing, hp, Phase.owns_standing]
    rfl
  rcases hi with howns | htask
  · exact h.eq_of_owns hown howns
  · obtain ⟨name, hname⟩ := Option.isSome_iff_exists.1 htask
    cases s with
    | read => cases hwrite
    | write =>
      have hnone := h.no_writer j (by rw [standing, hp]; rfl)
      rw [h.task_eq i name hname] at hnone
      cases hnone
    | long other => exact h.unique j i other name (by rw [standing, hp]; rfl) hname

/-- While a user owns the value, nobody else registers a task. -/
theorem Sound.task_none (h : m.Sound) (hi : (m.phase i).owns = true)
    (hentering : ∀ r, m.phase i ≠ .entering r) {mv : LockMove α} (hs : m.step? mv = some m')
    (hnone : m.state.task = none) : m'.state.task = none := by
  cases step_revised hs with
  | keep _ hstate _ => rw [hstate, hnone]
  | @register j r task hp _ _ _ _ _ =>
    have hji : j = i := by
      apply h.eq_of_owns
      · rw [standing, hp]
        rfl
      · rw [standing, Phase.owns_standing, hi]
    subst hji
    exact absurd hp (hentering r)
  | clear _ hstate _ => rw [hstate]; rfl
  | cancel hstate _ => rw [hstate]; exact hnone
  | count _ hstate _ => rw [hstate]; exact hnone
  | uncount _ hstate _ _ => rw [hstate]; exact hnone

/-- The user's task is registered and was asked to stop. -/
def Asked (m : LockMachine α) (i : Nat) : Prop :=
  (m.standing i).task.isSome = true ∧ m.state.cancelled = true

/-- As long as a task stays registered, requests to stop it are remembered, and only those. -/
theorem Sound.asked_step (h : m.Sound) {mv : LockMove α} (hs : m.step? mv = some m')
    (hkeep : (m.standing i).task.isSome = true → (m'.standing i).task.isSome = true) :
    m'.Asked i ↔ m.Asked i ∨ mv = .cancel ∧ (m.standing i).task.isSome = true := by
  have h' := h.step hs
  by_cases hreg : (m.standing i).task.isSome = true
  · obtain ⟨task, htask⟩ := Option.isSome_iff_exists.1 hreg
    obtain ⟨task', htask'⟩ := Option.isSome_iff_exists.1 (hkeep hreg)
    have hstate := h.task_eq i task htask
    have hstate' := h'.task_eq i task' htask'
    unfold Asked
    cases step_revised hs with
    | keep hmv hsame _ => simp [hreg, hkeep hreg, hsame, hmv]
    -- the user has its task registered, so no other can be, and none was cleared
    | register _ _ hnone =>
      rw [hstate] at hnone
      cases hnone
    | clear _ hfinish _ =>
      rw [hfinish] at hstate'
      cases hstate'
    | cancel hcancel _ => simp [hreg, hkeep hreg, hcancel, LockState.cancel]
    | count _ hsame _ => simp [hreg, hkeep hreg, hsame]
    | uncount _ hsame _ _ => simp [hreg, hkeep hreg, hsame]
  · -- a task that becomes registered now has not been asked to stop yet
    have hnot : ¬ m'.Asked i := by
      rintro ⟨hreg', hcancelled⟩
      obtain ⟨task', htask'⟩ := Option.isSome_iff_exists.1 hreg'
      have hstate' := h'.task_eq i task' htask'
      have hnew : m.state.task = none := by
        rw [Option.eq_none_iff_forall_ne_some]
        intro task htask
        have hold := (h.no_entry htask hs i).2 task' htask'
        rw [hold] at hreg
        exact hreg rfl
      cases step_revised hs with
      | keep _ hsame _ =>
        rw [hsame, hnew] at hstate'
        cases hstate'
      | register _ _ _ _ hstart _ =>
        rw [hstart] at hcancelled
        cases hcancelled
      | clear _ hfinish _ =>
        rw [hfinish] at hstate'
        cases hstate'
      | cancel hcancel _ =>
        rw [hcancel] at hstate'
        exact absurd (hnew.symm.trans hstate') (by simp)
      | count _ hsame _ =>
        rw [hsame] at hstate'
        exact absurd (hnew.symm.trans hstate') (by simp)
      | uncount _ hsame _ _ =>
        rw [hsame] at hstate'
        exact absurd (hnew.symm.trans hstate') (by simp)
    have hnot' : ¬ m.Asked i := fun hasked => hreg hasked.1
    simp [hnot, hnot', hreg]

end LockMachine

end LiveGraph
