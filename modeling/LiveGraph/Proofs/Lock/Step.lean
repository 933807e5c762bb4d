import LiveGraph.Lock.Machine

/-!
# The steps of a lock

A user of a lock goes through many phases, but four facts about a phase decide what it means to the
others: whether the user owns the value, the long task it has registered, whether it is in a short
section that may change the value, and what it owes the observers. `Phase.standing` keeps these four,
and `Standing.Turn` lists the few ways in which one step can change them together with the owner, the
registered task and what the observers were told. Invariants of the lock are proved on turns.
-/

namespace LiveGraph

/-- What a phase means to the other users. -/
structure Standing where
  /-- The user owns the value. -/
  owns : Bool := false
  /-- The long task that the user has registered. -/
  task : Option String := none
  /-- The user is in a short section that may change the value. -/
  writes : Bool := false
  /-- What the observers are to be told next. -/
  owed : Option (Option String) := none
deriving DecidableEq, Repr

/-- The standing of a phase. -/
def Phase.standing : Phase → Standing
  | granted _ | entering _ | rejected _ | leaving | inside .read => { owns := true }
  | inside .write => { owns := true, writes := true }
  | starting task => { owns := true, task := some task, owed := some (some task) }
  | inside (.long task) | yielding task | judging task | ending task =>
    { owns := true, task := some task }
  | draining task | sleeping task | returning task => { task := some task }
  | telling _ => { owns := true, owed := some none }
  | idle | checking _ | trying _ | announcing _ | waiting _ => {}

@[simp] theorem Phase.owns_standing (p : Phase) : p.standing.owns = p.owns := by
  cases p with
  | inside s => cases s <;> rfl
  | _ => rfl

/-- A user that is woken stands where it stood. -/
@[simp] theorem Phase.standing_woken (p : Phase) : p.woken.standing = p.standing := by
  cases p <;> rfl

/-- How one step of user `i` can change its standing, the owner and the registered task, and what it
tells the observers. The flag says whether an observer may give up. -/
inductive Standing.Turn (fails : Bool) (i : Nat) : Standing → Option Nat → Option String →
    Standing → Option Nat → Option String → List (Option String) → Prop
  | keep (s : Standing) (owner : Option Nat) (task : Option String) :
      Turn fails i s owner task s owner task []
  /-- The user takes the value. -/
  | acquire (s : Standing) (task : Option String) (h : s.owns = false) :
      Turn fails i s none task { s with owns := true } (some i) task []
  /-- The user gives the value up. -/
  | surrender (s : Standing) (owner : Option Nat) (task : Option String) (h : s.owns = true)
      (hwrites : s.writes = false) (howed : s.owed = none) :
      Turn fails i s owner task { s with owns := false } none task []
  /-- An observer gives up, and the user drops everything. -/
  | abort (s : Standing) (owner : Option Nat) (task : Option String) (h : s.owns = true)
      (hfails : fails = true) : Turn fails i s owner task {} none task []
  /-- The user enters a short section that may change the value. -/
  | enter (owner : Option Nat) :
      Turn fails i { owns := true } owner none { owns := true, writes := true } owner none []
  /-- The user leaves such a section. -/
  | dismiss (owner : Option Nat) (task : Option String) :
      Turn fails i { owns := true, writes := true } owner task { owns := true } owner task []
  /-- The user registers a long task. -/
  | start (name : String) (owner : Option Nat) :
      Turn fails i { owns := true } owner none
        { owns := true, task := some name, owed := some (some name) } owner (some name) []
  /-- The user takes its long task off the state. -/
  | finish (name : String) (owner : Option Nat) (task : Option String) :
      Turn fails i { owns := true, task := some name } owner task
        { owns := true, owed := some none } owner none []
  /-- The user tells the observers what it owes them. -/
  | tell (s : Standing) (owner : Option Nat) (task : Option String) {x : Option String}
      (h : s.owed = some x) : Turn fails i s owner task { s with owed := none } owner task [x]

/-- While a task is registered, no turn lets a user into a writing section or gives it a task. -/
theorem Standing.Turn.no_entry {fails : Bool} {i : Nat} {old new : Standing}
    {owner owner' : Option Nat} {name : String} {task : Option String}
    {told : List (Option String)} (h : Turn fails i old owner (some name) new owner' task told) :
    (new.writes = true → old.writes = true) ∧
      ∀ t, new.task = some t → old.task = some t := by
  cases h with
  | keep => exact ⟨id, fun _ => id⟩
  | acquire => exact ⟨id, fun _ => id⟩
  | surrender => exact ⟨id, fun _ => id⟩
  | abort => exact ⟨nofun, nofun⟩
  | dismiss => exact ⟨nofun, nofun⟩
  | finish => exact ⟨nofun, nofun⟩
  | tell => exact ⟨id, fun _ => id⟩

namespace LockMove

variable {α : Type}

/-- The user that makes the move. -/
def agent? : LockMove α → Option Nat
  | join | cancel => none
  | call i _ | update i _ | yield i | release i | proceed i | fail i => some i

/-- An observer gives up in the move. -/
def fails : LockMove α → Bool
  | fail _ => true
  | _ => false

end LockMove

namespace LockMachine

variable {α : Type}

/-- The standing of a user. -/
def standing (m : LockMachine α) (i : Nat) : Standing := (m.phase i).standing

/-- A user that is doing something has joined. -/
theorem lt_size_of_phase {m : LockMachine α} {i : Nat} {p : Phase} (hp : m.phase i = p)
    (hne : p ≠ .idle) : i < m.agents.size := by
  apply Nat.lt_of_not_le
  intro hge
  apply hne
  rw [← hp, phase, Array.getElem?_eq_none hge]

theorem getElem?_move (m : LockMachine α) {i : Nat} (p : Phase) (answer : Answer)
    (hi : i < m.agents.size) (j : Nat) :
    (m.move i p answer).agents[j]? = if j = i then some ⟨p, answer⟩ else m.agents[j]? := by
  rw [move, Array.getElem?_setIfInBounds]
  by_cases hj : i = j
  · subst hj
    rw [if_pos rfl, if_pos hi, if_pos rfl]
  · rw [if_neg hj, if_neg (Ne.symm hj)]

/-- A move changes the phase of one user. -/
theorem phase_move (m : LockMachine α) {i : Nat} (p : Phase) (answer : Answer)
    (hi : i < m.agents.size) (j : Nat) :
    (m.move i p answer).phase j = if j = i then p else m.phase j := by
  rw [phase, getElem?_move m p answer hi]
  by_cases hj : j = i
  · rw [if_pos hj, if_pos hj]
  · rw [if_neg hj, if_neg hj, phase]

/-- Waking concerns all users, and changes only those that sleep. -/
theorem phase_wake (m : LockMachine α) (j : Nat) : m.wake.phase j = (m.phase j).woken := by
  rw [phase, phase, wake, Array.getElem?_map]
  cases m.agents[j]? with
  | none => rfl
  | some a => rfl

/-- A waiter that is no longer counted wakes others at most. -/
theorem phase_uncount (m : LockMachine α) (j : Nat) :
    m.uncount.phase j = m.phase j ∨ m.uncount.phase j = (m.phase j).woken := by
  rw [uncount]
  dsimp only
  split
  · exact .inr (phase_wake _ j)
  · exact .inl rfl

theorem answer_uncount (m : LockMachine α) (j : Nat) : m.uncount.answer j = m.answer j := by
  rw [uncount]
  dsimp only
  split
  · rw [answer, wake, Array.getElem?_map, answer]
    cases m.agents[j]? with
    | none => rfl
    | some a => rfl
  · rfl

/-- What a step of user `i` does: it takes a turn, and wakes others at most. -/
structure Stepped (m m' : LockMachine α) (fails : Bool) (i : Nat) (told : List (Option String)) :
    Prop where
  turn : Standing.Turn fails i (m.standing i) m.owner m.state.task (m'.standing i) m'.owner
    m'.state.task told
  others : ∀ j, j ≠ i → m'.phase j = m.phase j ∨ m'.phase j = (m.phase j).woken
  answers : ∀ j, j ≠ i → m'.answer j = m.answer j
  told : m'.told.toList = m.told.toList ++ told
  value : m'.value = m.value
  name : m'.name = m.name

/-- A step of one user changes the standing of no other. -/
theorem Stepped.standing_eq {m m' : LockMachine α} {fails : Bool} {i : Nat}
    {told : List (Option String)} (h : Stepped m m' fails i told) {j : Nat} (hj : j ≠ i) :
    m'.standing j = m.standing j := by
  rw [standing, standing]
  rcases h.others j hj with hsame | hwoken
  · rw [hsame]
  · rw [hwoken, Phase.standing_woken]

/-- A user moves from one phase to the next. -/
theorem Stepped.of_move {m m' : LockMachine α} {i : Nat} {old new : Phase} {answer : Answer}
    {fails : Bool} {told : List (Option String)} (hi : i < m.agents.size) (hp : m.phase i = old)
    (hagents : m'.agents = (m.move i new answer).agents) (hname : m'.name = m.name)
    (hvalue : m'.value = m.value) (htold : m'.told.toList = m.told.toList ++ told)
    (hturn : Standing.Turn fails i old.standing m.owner m.state.task new.standing m'.owner
      m'.state.task told) : Stepped m m' fails i told := by
  have hget : ∀ j, m'.agents[j]? = if j = i then some ⟨new, answer⟩ else m.agents[j]? := by
    intro j
    rw [hagents]
    exact getElem?_move m new answer hi j
  have hself : m'.phase i = new := by
    rw [phase, hget, if_pos rfl]
  refine ⟨?_, fun j hj => .inl ?_, fun j hj => ?_, htold, hvalue, hname⟩
  · rw [standing, standing, hp, hself]
    exact hturn
  · rw [phase, hget, if_neg hj, phase]
  · rw [LockMachine.answer, hget, if_neg hj, LockMachine.answer]

/-- Writers and long tasks are turned away while a long task is registered. -/
theorem enter_busy {m : LockMachine α} {i : Nat} {r : Request} {task : String} (hr : r ≠ .read)
    (htask : m.state.task = some task) :
    m.enter i r = m.move i (.rejected (.busy m.name (some task))) := by
  cases r with
  | read => exact absurd rfl hr
  | write => rw [enter, LockState.permit, htask]
  | long name => rw [enter, LockState.permit, htask]
  | tryLong name => rw [enter, LockState.permit, htask]

/-- A user that owns the value enters its section, registers its task, or is turned away. -/
theorem stepped_enter {m : LockMachine α} {i : Nat} {r : Request} (hi : i < m.agents.size)
    (hp : m.phase i = .entering r) : Stepped m (m.enter i r) false i [] := by
  have htold : m.told.toList = m.told.toList ++ [] := by rw [List.append_nil]
  by_cases hr : r = .read
  · subst hr
    exact .of_move hi hp rfl rfl rfl htold (.keep _ _ _)
  · cases htask : m.state.task with
    | some task =>
      rw [enter_busy hr htask]
      exact .of_move hi hp rfl rfl rfl htold (.keep _ _ _)
    | none =>
      -- both kinds of long tasks register in the same way
      have hstart : ∀ name, m.enter i r = { m.move i (.starting name) with
          state := m.state.start name } → Stepped m (m.enter i r) false i [] := by
        intro name henter
        rw [henter]
        refine .of_move hi hp rfl rfl rfl htold ?_
        rw [htask]
        exact .start name _
      cases r with
      | read => exact absurd rfl hr
      | write =>
        have henter : m.enter i .write = m.move i (.inside .write) := by
          rw [enter, LockState.permit, htask]
        rw [henter]
        refine .of_move hi hp rfl rfl rfl htold ?_
        show Standing.Turn false i _ m.owner m.state.task _ m.owner m.state.task []
        rw [htask]
        exact .enter _
      | long name => exact hstart name (by rw [enter, LockState.permit, htask])
      | tryLong name => exact hstart name (by rw [enter, LockState.permit, htask])

/-- A waiter that got the value is no longer counted. -/
theorem stepped_uncount {m : LockMachine α} {i : Nat} {r : Request} (hi : i < m.agents.size)
    (hp : m.phase i = .granted r) : Stepped m (m.uncount.move i (.entering r)) false i [] := by
  have hsize : i < m.uncount.agents.size := by
    rw [uncount]
    dsimp only
    split
    · rw [wake, Array.size_map]
      exact hi
    · exact hi
  -- the last waiter wakes the sleepers, which changes phases but no standing
  have hphase := phase_move m.uncount (.entering r) .none hsize
  have hkeep : m.uncount.owner = m.owner ∧ m.uncount.state.task = m.state.task ∧
      m.uncount.told = m.told ∧ m.uncount.value = m.value ∧ m.uncount.name = m.name := by
    rw [uncount]
    dsimp only
    split
    · exact ⟨rfl, rfl, rfl, rfl, rfl⟩
    · exact ⟨rfl, rfl, rfl, rfl, rfl⟩
  refine ⟨?_, fun j hj => ?_, fun j hj => ?_, ?_, hkeep.2.2.2.1, hkeep.2.2.2.2⟩
  · show Standing.Turn false i (m.phase i).standing m.owner m.state.task
      ((m.uncount.move i (.entering r)).phase i).standing m.uncount.owner m.uncount.state.task []
    rw [hphase, if_pos rfl, hp, hkeep.1, hkeep.2.1]
    exact .keep _ _ _
  · rw [hphase, if_neg hj]
    exact phase_uncount m j
  · rw [answer, getElem?_move _ _ _ hsize, if_neg hj]
    exact answer_uncount m j
  · show m.uncount.told.toList = _
    rw [hkeep.2.2.1, List.append_nil]

/-- The next step of a user's call. -/
theorem stepped_proceed {m m' : LockMachine α} {i : Nat} (h : m.proceed? i = some m') :
    ∃ told, Stepped m m' false i told := by
  have htold : m.told.toList = m.told.toList ++ [] := by rw [List.append_nil]
  have hi : m.phase i ≠ .idle → i < m.agents.size := lt_size_of_phase rfl
  rw [proceed?] at h
  cases hp : m.phase i with
  | idle =>
    rw [hp] at h
    cases h
  | inside s =>
    rw [hp] at h
    cases h
  | sleeping task =>
    rw [hp] at h
    cases h
  | checking r =>
    rw [hp] at h hi
    dsimp only at h
    split at h
    · cases h
      exact ⟨[], .of_move (hi nofun) hp rfl rfl rfl htold (.keep _ _ _)⟩
    · cases h
      exact ⟨[], .of_move (hi nofun) hp rfl rfl rfl htold (.keep _ _ _)⟩
  | trying r =>
    rw [hp] at h hi
    dsimp only at h
    split at h
    · next howner =>
      cases h
      refine ⟨[], .of_move (hi nofun) hp rfl rfl rfl htold ?_⟩
      rw [howner]
      exact .acquire _ _ rfl
    · cases h
      exact ⟨[], .of_move (hi nofun) hp rfl rfl rfl htold (.keep _ _ _)⟩
    · cases h
      exact ⟨[], .of_move (hi nofun) hp rfl rfl rfl htold (.keep _ _ _)⟩
  | announcing r =>
    rw [hp] at h hi
    cases h
    exact ⟨[], .of_move (hi nofun) hp rfl rfl rfl htold (.keep _ _ _)⟩
  -- only a free value can be taken
  | waiting r =>
    rw [hp] at h hi
    dsimp only at h
    split at h
    · next howner =>
      cases h
      refine ⟨[], .of_move (hi nofun) hp rfl rfl rfl htold ?_⟩
      rw [howner]
      exact .acquire _ _ rfl
    · cases h
  | granted r =>
    rw [hp] at h hi
    cases h
    exact ⟨[], stepped_uncount (hi nofun) hp⟩
  | entering r =>
    rw [hp] at h hi
    cases h
    exact ⟨[], stepped_enter (hi nofun) hp⟩
  | starting task =>
    rw [hp] at h hi
    cases h
    exact ⟨[some task], .of_move (hi nofun) hp rfl rfl rfl Array.toList_push (.tell _ _ _ rfl)⟩
  | rejected e =>
    rw [hp] at h hi
    cases h
    exact ⟨[], .of_move (hi nofun) hp rfl rfl rfl htold (.surrender _ _ _ rfl rfl rfl)⟩
  | yielding task =>
    rw [hp] at h hi
    cases h
    exact ⟨[], .of_move (hi nofun) hp rfl rfl rfl htold (.surrender _ _ _ rfl rfl rfl)⟩
  -- whether it has to sleep depends on the count, and makes no difference here
  | draining task =>
    rw [hp] at h hi
    cases h
    refine ⟨[], .of_move (hi nofun) hp rfl rfl rfl htold ?_⟩
    split
    · exact .keep _ _ _
    · exact .keep _ _ _
  | returning task =>
    rw [hp] at h hi
    dsimp only at h
    split at h
    · next howner =>
      cases h
      refine ⟨[], .of_move (hi nofun) hp rfl rfl rfl htold ?_⟩
      rw [howner]
      exact .acquire _ _ rfl
    · cases h
  | judging task =>
    rw [hp] at h hi
    cases h
    exact ⟨[], .of_move (hi nofun) hp rfl rfl rfl htold (.keep _ _ _)⟩
  | ending task =>
    rw [hp] at h hi
    cases h
    exact ⟨[], .of_move (hi nofun) hp rfl rfl rfl htold (.finish _ _ _)⟩
  | telling task =>
    rw [hp] at h hi
    cases h
    exact ⟨[none], .of_move (hi nofun) hp rfl rfl rfl Array.toList_push (.tell _ _ _ rfl)⟩
  | leaving =>
    rw [hp] at h hi
    cases h
    exact ⟨[], .of_move (hi nofun) hp rfl rfl rfl htold (.surrender _ _ _ rfl rfl rfl)⟩

/-- Nobody moves. -/
structure Unmoved (m m' : LockMachine α) : Prop where
  phase : ∀ j, m'.phase j = m.phase j
  answer : ∀ j, m'.answer j = m.answer j
  owner : m'.owner = m.owner
  task : m'.state.task = m.state.task
  told : m'.told = m.told
  value : m'.value = m.value
  name : m'.name = m.name

theorem Unmoved.standing_eq {m m' : LockMachine α} (h : Unmoved m m') :
    m'.standing = m.standing := by
  funext j
  rw [standing, standing, h.phase]

/-- The value is changed in a section that allows it. -/
theorem step_update {m m' : LockMachine α} {i : Nat} {f : α → α}
    (h : m.step? (.update i f) = some m') :
    ∃ s, m.phase i = .inside s ∧ s.canWrite = true ∧ m' = { m with value := f m.value } := by
  rw [step?] at h
  split at h
  · next s hp =>
    split at h
    · next hwrite =>
      cases h
      exact ⟨s, hp, hwrite, rfl⟩
    · cases h
  · cases h

/-- A move changes the value in a section that allows it, or moves nobody, or is a step of its
user. -/
theorem step_cases {m m' : LockMachine α} {mv : LockMove α} (h : m.step? mv = some m') :
    (∃ i f s, mv = .update i f ∧ m.phase i = .inside s ∧ s.canWrite = true ∧
      m' = { m with value := f m.value }) ∨
    (mv.agent? = none ∧ Unmoved m m') ∨
    ∃ i told, mv.agent? = some i ∧ Stepped m m' mv.fails i told := by
  have htold : m.told.toList = m.told.toList ++ [] := by rw [List.append_nil]
  cases mv with
  | join =>
    cases h
    -- a new user is idle, like any user that is not there
    have hget : ∀ j : Nat, (m.agents.push {})[j]? = m.agents[j]? ∨
        m.agents[j]? = none ∧ (m.agents.push {})[j]? = some ({} : Agent) := by
      intro j
      rw [Array.getElem?_push]
      by_cases hj : j = m.agents.size
      · rw [if_pos hj]
        exact .inr ⟨Array.getElem?_eq_none (Nat.le_of_eq hj.symm), rfl⟩
      · rw [if_neg hj]
        exact .inl rfl
    have hphase : ∀ j, ({ m with agents := m.agents.push {} } : LockMachine α).phase j
        = m.phase j := by
      intro j
      rw [phase, phase]
      rcases hget j with hsame | ⟨hold, hnew⟩
      · rw [hsame]
      · rw [hold, hnew]
    have hanswer : ∀ j, ({ m with agents := m.agents.push {} } : LockMachine α).answer j
        = m.answer j := by
      intro j
      rw [answer, answer]
      rcases hget j with hsame | ⟨hold, hnew⟩
      · rw [hsame]
      · rw [hold, hnew]
    exact .inr (.inl ⟨rfl, hphase, hanswer, rfl, rfl, rfl, rfl, rfl⟩)
  | call i r =>
    rw [step?] at h
    split at h
    · next a hget =>
      cases h
      have hi : i < m.agents.size := (Array.getElem?_eq_some_iff.1 hget).1
      have hp : m.phase i = .idle := by rw [phase, hget]
      refine .inr (.inr ⟨i, [], rfl, .of_move hi hp rfl rfl rfl htold ?_⟩)
      cases r with
      | read => exact .keep _ _ _
      | _ => exact .keep _ _ _
    · cases h
  | update i f =>
    obtain ⟨s, hp, hwrite, rfl⟩ := step_update h
    exact .inl ⟨i, f, s, rfl, hp, hwrite, rfl⟩
  | cancel =>
    cases h
    exact .inr (.inl ⟨rfl, fun _ => rfl, fun _ => rfl, rfl, rfl, rfl, rfl, rfl⟩)
  | yield i =>
    rw [step?] at h
    split at h
    · next task hp =>
      cases h
      have hi : i < m.agents.size := lt_size_of_phase hp (by simp)
      exact .inr (.inr ⟨i, [], rfl, .of_move hi hp rfl rfl rfl htold (.keep _ _ _)⟩)
    · cases h
  | release i =>
    rw [step?] at h
    split at h
    · next task hp =>
      cases h
      have hi : i < m.agents.size := lt_size_of_phase hp (by simp)
      exact .inr (.inr ⟨i, [], rfl, .of_move hi hp rfl rfl rfl htold (.keep _ _ _)⟩)
    · next s hlong hp =>
      cases h
      have hi : i < m.agents.size := lt_size_of_phase hp (by simp)
      refine .inr (.inr ⟨i, [], rfl, .of_move hi hp rfl rfl rfl htold ?_⟩)
      -- a reader has nothing to give up, and a writer its section
      cases s with
      | read => exact .keep _ _ _
      | write => exact .dismiss _ _
      | long task => exact absurd rfl (hlong task)
    · cases h
  | proceed i =>
    obtain ⟨told, hstep⟩ := stepped_proceed h
    exact .inr (.inr ⟨i, told, rfl, hstep⟩)
  | fail i =>
    rw [step?] at h
    split at h
    · next task hp =>
      cases h
      have hi : i < m.agents.size := lt_size_of_phase hp (by simp)
      exact .inr (.inr ⟨i, [], rfl, .of_move hi hp rfl rfl rfl htold (.abort _ _ _ rfl rfl)⟩)
    · next task hp =>
      cases h
      have hi : i < m.agents.size := lt_size_of_phase hp (by simp)
      exact .inr (.inr ⟨i, [], rfl, .of_move hi hp rfl rfl rfl htold (.abort _ _ _ rfl rfl)⟩)
    · cases h

/-- Users that do not move are woken at most. -/
theorem step_frame {m m' : LockMachine α} {mv : LockMove α} (h : m.step? mv = some m') {j : Nat}
    (hj : mv.agent? ≠ some j) :
    (m'.phase j = m.phase j ∨ m'.phase j = (m.phase j).woken) ∧ m'.answer j = m.answer j := by
  rcases step_cases h with ⟨i, f, s, rfl, -, -, rfl⟩ | ⟨-, hsame⟩ | ⟨i, told, hi, hstep⟩
  · exact ⟨.inl rfl, rfl⟩
  · exact ⟨.inl (hsame.phase j), hsame.answer j⟩
  · have hji : j ≠ i := by
      rintro rfl
      exact hj hi
    exact ⟨hstep.others j hji, hstep.answers j hji⟩

/-- No step renames the lock. -/
theorem step_name {m m' : LockMachine α} {mv : LockMove α} (h : m.step? mv = some m') :
    m'.name = m.name := by
  rcases step_cases h with ⟨i, f, s, -, -, -, rfl⟩ | ⟨-, hsame⟩ | ⟨i, told, -, hstep⟩
  · rfl
  · exact hsame.name
  · exact hstep.name

/-! ## Runs -/

/-- The machine after some moves, if they can all be made. -/
def run (m : LockMachine α) (moves : List (LockMove α)) : Option (LockMachine α) :=
  moves.foldlM step? m

/-- A run goes on from where its first move leads. -/
theorem run_cons {m m' : LockMachine α} {mv : LockMove α} {moves : List (LockMove α)}
    (h : m.run (mv :: moves) = some m') : ∃ m₁, m.step? mv = some m₁ ∧ m₁.run moves = some m' := by
  rw [run, List.foldlM_cons] at h
  exact Option.bind_eq_some_iff.1 h

/-- A user in the middle of a call can only take its next step. -/
theorem eq_proceed {m m' : LockMachine α} {mv : LockMove α} {i : Nat} (h : m.step? mv = some m')
    (hi : mv.agent? = some i) (hidle : m.phase i ≠ .idle) (hinside : ∀ s, m.phase i ≠ .inside s)
    (hstart : ∀ task, m.phase i ≠ .starting task) (htell : ∀ task, m.phase i ≠ .telling task) :
    mv = .proceed i := by
  cases mv with
  | join => cases hi
  | cancel => cases hi
  | call j r =>
    cases hi
    rw [step?] at h
    split at h
    · next a hget => exact absurd (by rw [phase, hget]) hidle
    · cases h
  | update j f =>
    cases hi
    obtain ⟨s, hp, -, -⟩ := step_update h
    exact absurd hp (hinside s)
  | yield j =>
    cases hi
    rw [step?] at h
    split at h
    · next task hp => exact absurd hp (hinside _)
    · cases h
  | release j =>
    cases hi
    rw [step?] at h
    split at h
    · next task hp => exact absurd hp (hinside _)
    · next s _ hp => exact absurd hp (hinside s)
    · cases h
  | proceed j =>
    cases hi
    rfl
  | fail j =>
    cases hi
    rw [step?] at h
    split at h
    · next task hp => exact absurd hp (hstart task)
    · next task hp => exact absurd hp (htell task)
    · cases h

/-- An idle user can only make a request. -/
theorem eq_call {m m' : LockMachine α} {mv : LockMove α} {i : Nat} (h : m.step? mv = some m')
    (hi : mv.agent? = some i) (hidle : m.phase i = .idle) : ∃ r, mv = .call i r := by
  cases mv with
  | join => cases hi
  | cancel => cases hi
  | call j r =>
    cases hi
    exact ⟨r, rfl⟩
  | update j f =>
    cases hi
    rw [step?, hidle] at h
    cases h
  | yield j =>
    cases hi
    rw [step?, hidle] at h
    cases h
  | release j =>
    cases hi
    rw [step?, hidle] at h
    cases h
  | proceed j =>
    cases hi
    rw [step?, proceed?, hidle] at h
    cases h
  | fail j =>
    cases hi
    rw [step?, hidle] at h
    cases h

end LockMachine

end LiveGraph
