import LiveGraph.Proofs.Lock.History

/-!
# Observers that give up

The user of a long task tells the observers twice: after the task was registered, and after it was taken
off the state. An observer that gives up breaks off the call that told it. Either way the value is free
afterwards. But between the registration and the section there is nobody yet who would take the task off
again: a call that is broken off there leaves its task registered for good, and every later writer and
long task is turned away. Where no start is broken off, a registered task always has its user, and the
lock is free as soon as nobody is at work on a task.
-/

namespace LiveGraph

namespace Phase

/-- The user holds the section of a long task, or is about to start or to end one. -/
def onTask : Phase → Bool
  | entering (.long _) | entering (.tryLong _) | starting _ | inside (.long _) | yielding _
  | draining _ | sleeping _ | returning _ | judging _ | ending _ | telling _ => true
  | _ => false

theorem onTask_of_task {p : Phase} {task : String} (h : p.standing.task = some task) :
    p.onTask = true := by
  cases p with
  | inside s =>
    cases s with
    | long t => rfl
    | _ => cases h
  | starting | yielding | draining | sleeping | returning | judging | ending => rfl
  | _ => cases h

end Phase

namespace Standing.Turn

variable {fails : Bool} {i : Nat} {old new : Standing} {owner owner' : Option Nat}
  {task task' : Option String} {told : List (Option String)}

/-- Who has no task cannot take one off. -/
theorem task_kept {name : String} (h : Turn fails i old owner (some name) new owner' task' told)
    (hnone : old.task = none) : task' = some name := by
  cases h with
  | finish => cases hnone
  | _ => rfl

/-- A task that is registered after a turn is the user's own, or was registered before, and then the
user has it still if it had it; unless the user drops it because an observer gives up. -/
theorem task_cases {name : String} (h : Turn fails i old owner task new owner' task' told)
    (hfails : fails = true → old.task = none) (htask : task' = some name) :
    new.task = some name ∨ task = some name ∧ (old.task = some name → new.task = some name) := by
  cases h with
  | abort _ _ _ _ hf =>
    refine .inr ⟨htask, ?_⟩
    rw [hfails hf]
    rintro ⟨⟩
  | start => exact .inl htask
  | enter | finish => cases htask
  | _ => exact .inr ⟨htask, id⟩

end Standing.Turn

namespace LockMachine

variable {α : Type} {m m' : LockMachine α} {mv : LockMove α} {i : Nat} {task : String}

/-- A task is registered, and no user has it. -/
structure Orphaned (m : LockMachine α) (task : String) : Prop where
  registered : m.state.task = some task
  nobody : ∀ i, (m.standing i).task = none

/-- A task that is registered is some user's. -/
def Attributed (m : LockMachine α) : Prop :=
  ∀ task, m.state.task = some task → ∃ i, (m.standing i).task = some task

/-- The moves break off the start of a long task. -/
def BreaksStart (m : LockMachine α) (moves : List (LockMove α)) : Prop :=
  ∃ before i after mid task, moves = before ++ .fail i :: after ∧ m.run before = some mid ∧
    mid.phase i = .starting task

/-! ## Steps -/

/-- A user fails while it tells the news of its task, and loses the value then. -/
theorem fail_cases (h : m.step? (.fail i) = some m') :
    ((∃ task, m.phase i = .starting task) ∨ ∃ task, m.phase i = .telling task) ∧
      m' = { m.move i .idle .aborted with owner := none } := by
  rw [step?] at h
  split at h
  · next task hp =>
    cases h
    exact ⟨.inl ⟨task, hp⟩, rfl⟩
  · next task hp =>
    cases h
    exact ⟨.inr ⟨task, hp⟩, rfl⟩
  · cases h

/-- Nobody can take off the task that nobody has. -/
theorem Orphaned.step (h : m.Orphaned task) (hs : m.step? mv = some m') : m'.Orphaned task := by
  rcases step_cases hs with ⟨i, f, s, -, -, -, rfl⟩ | ⟨-, hsame⟩ | ⟨i, told, -, hstep⟩
  · exact ⟨h.registered, h.nobody⟩
  · refine ⟨hsame.task.trans h.registered, ?_⟩
    rw [hsame.standing_eq]
    exact h.nobody
  · have hturn := hstep.turn
    rw [h.registered] at hturn
    refine ⟨hturn.task_kept (h.nobody i), ?_⟩
    intro j
    by_cases hj : j = i
    · subst hj
      cases hnew : (m'.standing j).task with
      | none => rfl
      | some t =>
        have hold := hturn.no_entry.2 t hnew
        rw [h.nobody j] at hold
        cases hold
    · rw [hstep.standing_eq hj]
      exact h.nobody j

/-- A task without a user stays registered for good. -/
theorem Orphaned.run {moves : List (LockMove α)} (h : m.Orphaned task)
    (hrun : m.run moves = some m') : m'.Orphaned task :=
  run_invariant (P := (Orphaned · task)) (fun _ _ _ _ h hs => h.step hs) h hrun

/-- A start that is broken off leaves its task to nobody. -/
theorem Sound.orphaned (h : m.Sound) (hp : m.phase i = .starting task)
    (hs : m.step? (.fail i) = some m') : m'.Orphaned task := by
  have htask : (m.standing i).task = some task := by
    rw [standing, hp]
    rfl
  have hi : i < m.agents.size := lt_size_of_phase hp Phase.noConfusion
  obtain ⟨-, rfl⟩ := fail_cases hs
  refine ⟨h.task_eq i task htask, ?_⟩
  intro j
  have hphase : (m.move i .idle .aborted).phase j = if j = i then .idle else m.phase j :=
    phase_move m .idle .aborted hi j
  show ((m.move i .idle .aborted).phase j).standing.task = none
  rw [hphase]
  split
  · rfl
  · next hj =>
    cases hother : (m.phase j).standing.task with
    | none => rfl
    | some t => exact absurd (h.unique j i t task hother htask) hj

/-- Other moves leave a registered task to its user. -/
theorem Attributed.step (h : m.Attributed) (hs : m.step? mv = some m')
    (hno : ∀ i task, mv = .fail i → m.phase i ≠ .starting task) : m'.Attributed := by
  intro t ht
  rcases step_cases hs with ⟨i, f, s, -, -, -, rfl⟩ | ⟨-, hsame⟩ | ⟨i, told, hi, hstep⟩
  · exact h t ht
  · rw [hsame.task] at ht
    obtain ⟨j, hj⟩ := h t ht
    exact ⟨j, by rw [hsame.standing_eq]; exact hj⟩
  -- who fails after the news of the end has no task left
  · have hfails : mv.fails = true → (m.standing i).task = none := by
      intro hf
      cases mv with
      | fail j =>
        cases hi
        obtain ⟨⟨task, hp⟩ | ⟨task, hp⟩, -⟩ := fail_cases hs
        · exact absurd hp (hno i task rfl)
        · rw [standing, hp]
          rfl
      | _ => cases hf
    rcases hstep.turn.task_cases hfails ht with hnew | ⟨hbefore, hkeep⟩
    · exact ⟨i, hnew⟩
    · obtain ⟨j, hj⟩ := h t hbefore
      -- the user of the task goes on with it, and the others do not matter
      by_cases hji : j = i
      · subst hji
        exact ⟨j, hkeep hj⟩
      · refine ⟨j, ?_⟩
        rw [hstep.standing_eq hji]
        exact hj

/-! ## Runs -/

theorem breaksStart_concat {moves : List (LockMove α)} (hrun : m.run moves = some m') :
    m.BreaksStart (moves ++ [mv]) ↔
      m.BreaksStart moves ∨ ∃ i task, mv = .fail i ∧ m'.phase i = .starting task := by
  constructor
  · rintro ⟨before, i, after, mid, task, heq, hbefore, hp⟩
    rcases List.eq_nil_or_concat after with rfl | ⟨after, last, rfl⟩
    · obtain ⟨rfl, hmv⟩ := List.append_inj' heq rfl
      cases hmv
      rw [hrun] at hbefore
      cases hbefore
      exact .inr ⟨i, task, rfl, hp⟩
    · have hsplit : moves ++ [mv] = (before ++ .fail i :: after) ++ [last] := by
        rw [heq]
        simp
      obtain ⟨rfl, -⟩ := List.append_inj' hsplit rfl
      exact .inl ⟨before, i, after, mid, task, rfl, hbefore, hp⟩
  · rintro (⟨before, i, after, mid, task, rfl, hbefore, hp⟩ | ⟨i, task, rfl, hp⟩)
    · exact ⟨before, i, after ++ [mv], mid, task, by simp, hbefore, hp⟩
    · exact ⟨moves, i, [], m', task, rfl, hrun, hp⟩

/-- After any moves a registered task is some user's, unless a start was broken off: then a task is
left over. -/
theorem attributed_or_orphaned {name : String} {value : α} {moves : List (LockMove α)}
    (hrun : ({ name, value } : LockMachine α).run moves = some m) :
    m.Sound ∧ (¬ BreaksStart { name, value } moves ∧ m.Attributed ∨
      BreaksStart { name, value } moves ∧ ∃ task, m.Orphaned task) := by
  refine run_induction (P := fun moves m => m.Sound ∧
    (¬ BreaksStart { name, value } moves ∧ m.Attributed ∨
      BreaksStart { name, value } moves ∧ ∃ task, m.Orphaned task))
    ⟨sound_initial name value, .inl ⟨?_, ?_⟩⟩ ?_ hrun
  · rintro ⟨before, i, after, mid, task, heq, -⟩
    cases before with
    | nil => cases heq
    | cons => cases heq
  · rintro task ⟨⟩
  · rintro moves m mv m' hrun ⟨hsound, hcases⟩ hs
    refine ⟨hsound.step hs, ?_⟩
    rw [breaksStart_concat hrun]
    by_cases hfail : ∃ i task, mv = .fail i ∧ m.phase i = .starting task
    · obtain ⟨i, task, rfl, hp⟩ := hfail
      exact .inr ⟨.inr ⟨i, task, rfl, hp⟩, task, hsound.orphaned hp hs⟩
    · rcases hcases with ⟨hnone, hattributed⟩ | ⟨hbroken, task, horphaned⟩
      · refine .inl ⟨not_or.2 ⟨hnone, hfail⟩, hattributed.step hs ?_⟩
        exact fun i task hmv hp => hfail ⟨i, task, hmv, hp⟩
      · exact .inr ⟨.inl hbroken, task, horphaned.step hs⟩

/-- Where the value is free and no task is registered, a writer gets its section. -/
theorem write_enters (hnone : m.state.task = none) (hfree : m.owner = none) {a : Answer}
    (hi : m.agents[i]? = some ⟨.idle, a⟩) :
    ∃ m', m.run [.call i .write, .proceed i, .proceed i, .proceed i] = some m' ∧
      m'.phase i = .inside .write := by
  have hsize : i < m.agents.size := (Array.getElem?_eq_some_iff.1 hi).1
  have hphase : ∀ (m : LockMachine α) p, i < m.agents.size → (m.move i p).phase i = p := by
    intro m p hi
    rw [phase_move m p .none hi, if_pos rfl]
  have hmove : ∀ (m : LockMachine α) p, (m.move i p).agents.size = m.agents.size :=
    fun m p => Array.size_setIfInBounds
  -- the writer looks for a task, tries the value and looks again
  let m₁ := m.move i (.checking .write)
  let m₂ := m₁.move i (.trying .write)
  let m₃ : LockMachine α := { m₂.move i (.entering .write) with owner := some i }
  have h₁ : m.step? (.call i .write) = some m₁ := by
    rw [step?, hi]
    rfl
  have h₂ : m₁.step? (.proceed i) = some m₂ := by
    have hp : m₁.phase i = .checking .write := hphase m _ hsize
    have hnone₁ : m₁.state.task = none := hnone
    rw [step?, proceed?, hp]
    simp only [hnone₁]
    rfl
  have h₃ : m₂.step? (.proceed i) = some m₃ := by
    have hp : m₂.phase i = .trying .write := hphase m₁ _ (by rw [hmove]; exact hsize)
    have hfree₂ : m₂.owner = none := hfree
    rw [step?, proceed?, hp]
    simp only [hfree₂]
    rfl
  have h₄ : m₃.step? (.proceed i) = some (m₃.move i (.inside .write)) := by
    have hp : m₃.phase i = .entering .write := hphase m₂ _ (by rw [hmove, hmove]; exact hsize)
    have hnone₃ : m₃.state.task = none := hnone
    have hpermit : m₃.state.permit m₃.name = .ok () := by
      rw [LockState.permit, hnone₃]
    rw [step?, proceed?, hp]
    simp only [enter, hpermit]
  refine ⟨m₃.move i (.inside .write), ?_, hphase m₃ _ ?_⟩
  · show (m.step? _).bind (fun m => (m.step? _).bind fun m => (m.step? _).bind fun m =>
      (m.step? _).bind some) = _
    rw [h₁, Option.bind_some, h₂, Option.bind_some, h₃, Option.bind_some, h₄, Option.bind_some]
  · show i < (m₂.move i (.entering .write)).agents.size
    rw [hmove, hmove, hmove]
    exact hsize

/-- The lock is free of tasks that nobody works on, exactly if no start was broken off. -/
structure Robust (start : LockMachine α) (moves : List (LockMove α)) (m : LockMachine α) : Prop where
  /-- Who has returned from its call, whether it was broken off or not, does not own the value. -/
  released : ∀ i, m.phase i = .idle → m.owner ≠ some i
  /-- Where nobody is at work on a task, none is registered, unless a start was broken off. -/
  unregistered : (∀ i, (m.phase i).onTask = false) → (m.state.task = none ↔ ¬ start.BreaksStart moves)
  /-- Then a writer gets its section once the value is free. -/
  writable : (∀ i, (m.phase i).onTask = false) → ¬ start.BreaksStart moves → m.owner = none →
    ∀ i a, m.agents[i]? = some ⟨.idle, a⟩ →
      ∃ m', m.run [.call i .write, .proceed i, .proceed i, .proceed i] = some m' ∧
        m'.phase i = .inside .write
  /-- A start that was broken off shuts out writers and long tasks for good. -/
  wedged : start.BreaksStart moves → ∃ task, ∀ more m', m.run more = some m' →
    m'.state.task = some task ∧ ∀ i, m'.phase i ≠ .inside .write ∧ (m'.standing i).task = none

/-- What an observer that gives up can do to a lock. -/
theorem observers_may_fail {name : String} {value : α} {moves : List (LockMove α)}
    (hrun : ({ name, value } : LockMachine α).run moves = some m) :
    Robust { name, value } moves m := by
  obtain ⟨hsound, hcases⟩ := attributed_or_orphaned hrun
  have hquiet : (∀ i, (m.phase i).onTask = false) → ¬ BreaksStart { name, value } moves →
      m.state.task = none := by
    intro hquiet hno
    rcases hcases with ⟨-, hattributed⟩ | ⟨hbroken, -⟩
    · cases htask : m.state.task with
      | none => rfl
      | some t =>
        obtain ⟨i, hi⟩ := hattributed t htask
        have hon := Phase.onTask_of_task hi
        rw [hquiet i] at hon
        cases hon
    · exact absurd hbroken hno
  refine ⟨?_, ?_, ?_, ?_⟩
  · intro i hidle howner
    have howns := (hsound.owner_iff i).1 howner
    rw [standing, hidle] at howns
    cases howns
  · intro hall
    refine ⟨?_, hquiet hall⟩
    rintro hnone hbroken
    rcases hcases with ⟨hno, -⟩ | ⟨-, task, horphaned⟩
    · exact hno hbroken
    · rw [horphaned.registered] at hnone
      cases hnone
  · intro hall hno hfree i a hi
    exact write_enters (hquiet hall hno) hfree hi
  · intro hbroken
    rcases hcases with ⟨hno, -⟩ | ⟨-, task, horphaned⟩
    · exact absurd hbroken hno
    · refine ⟨task, ?_⟩
      intro more m' hmore
      have hlater := horphaned.run hmore
      refine ⟨hlater.registered, ?_⟩
      intro i
      refine ⟨?_, hlater.nobody i⟩
      -- a writer inside would have found no task
      intro hp
      have hnone := (hsound.run hmore).no_writer i (by rw [standing, hp]; rfl)
      rw [hlater.registered] at hnone
      cases hnone

/-- The start of a long task, up to the call of the observers, and an observer that gives up. -/
def brokenStart : List (LockMove Nat) :=
  [.join, .call 0 (.long "layout"), .proceed 0, .proceed 0, .proceed 0, .fail 0]

/-- The task ends, and the observer gives up when it is told of the end. -/
def brokenEnd : List (LockMove Nat) :=
  [.join, .call 0 (.long "layout"), .proceed 0, .proceed 0, .proceed 0, .proceed 0, .release 0,
   .proceed 0, .fail 0]

/-- An end that is broken off does no harm. -/
theorem observers_may_fail_at_end :
    ∃ m, ({ name := "State", value := 0 } : LockMachine Nat).run brokenEnd = some m ∧
      m.agents = #[⟨.idle, .aborted⟩] ∧ Robust { name := "State", value := 0 } brokenEnd m :=
  ⟨_, rfl, rfl, @observers_may_fail Nat _ "State" 0 brokenEnd rfl⟩

/-- A start that is broken off leaves its task registered, though nobody is at work on a task. -/
theorem broken_start_leaves_task :
    ∃ m, ({ name := "State", value := 0 } : LockMachine Nat).run brokenStart = some m ∧
      m.agents = #[⟨.idle, .aborted⟩] ∧ m.owner = none ∧ m.state.task = some "layout" :=
  ⟨_, rfl, rfl, rfl, rfl⟩

end LockMachine

end LiveGraph
