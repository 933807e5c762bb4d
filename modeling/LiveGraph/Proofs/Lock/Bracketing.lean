import LiveGraph.Proofs.Lock.Announcement
import LiveGraph.Proofs.Lock.History

/-!
# The news of a lock bracket its long tasks

The observers of a lock are told the name of a long task when it has started, and `none` when it has
ended. A task is registered in one step and told of in another, and a task that yields lets others in
between, but whoever owes news owns the value until they are told. So the news are those of the
registered tasks, in their order, with the end of each before the start of the next. A user that is
turned away tells nothing.
-/

namespace LiveGraph

/-- The news of tasks that ran one after the other. -/
def brackets (names : List String) : List (Option String) :=
  names.flatMap fun name => [some name, none]

theorem brackets_concat (names : List String) (name : String) :
    brackets (names ++ [name]) = brackets names ++ [some name, none] := by
  simp [brackets]

/-- The news still to come of the task that runs. -/
def closing : Option String → List (Option String)
  | some _ => [none]
  | none => []

/-- With the news that are owed, and the end of the task that runs, the news are those of the tasks of
these names. -/
structure Bracketed (standing : Nat → Standing) (task : Option String) (told : List (Option String))
    (names : List String) : Prop where
  owing : ∀ i x, (standing i).owed = some x → told ++ x :: closing x = brackets names
  settled : (∀ i, (standing i).owed = none) → told ++ closing task = brackets names

/-- Nobody owes news while the owner of the value does not. -/
theorem Guarded.owed_eq_none {s : Nat → Standing} {owner : Option Nat} {task : Option String} {i : Nat}
    (hg : Guarded s owner task) (howns : ∀ j x, (s j).owed = some x → (s j).owns = true)
    (hi : (s i).owns = true) (howed : (s i).owed = none) (j : Nat) : (s j).owed = none := by
  rw [Option.eq_none_iff_forall_ne_some]
  intro x hj
  have hji : j = i := hg.eq_of_owns (howns j x hj) hi
  rw [hji, howed] at hj
  cases hj

/-- A task that stays as it is was not registered just now. -/
theorem newTask_self (task : Option String) : (if task = none then task else none) = none := by
  split
  · assumption
  · rfl

namespace Bracketed

variable {s s' : Nat → Standing} {owner owner' : Option Nat} {task task' heard : Option String}
  {i : Nat} {told news : List (Option String)} {names : List String}

/-- A user that owes what it owed before. -/
theorem retain (h : Bracketed s task told names) (hi : (s' i).owed = (s i).owed)
    (hothers : ∀ j, j ≠ i → s' j = s j) :
    Bracketed s' task (told ++ []) (names ++ (if task = none then task else none).toList) := by
  have howed := owed_eq_of_others hi hothers
  rw [newTask_self, Option.toList_none, List.append_nil, List.append_nil]
  refine ⟨fun j x hj => ?_, fun hnone => ?_⟩
  · rw [howed] at hj
    exact h.owing j x hj
  · apply h.settled
    intro j
    rw [← howed]
    exact hnone j

/-- The user that owns the value comes to owe news, and so nobody else does. -/
theorem owe (hg : Guarded s owner task) (howns : ∀ j x, (s j).owed = some x → (s j).owns = true)
    (hi : (s i).owns = true) {x : Option String} (hi' : (s' i).owed = some x)
    (hothers : ∀ j, j ≠ i → s' j = s j) (hnews : told ++ x :: closing x = brackets names) :
    Bracketed s' task' told names := by
  refine ⟨fun j y hj => ?_, fun hnone => ?_⟩
  · by_cases hji : j = i
    · rw [hji, hi'] at hj
      cases hj
      exact hnews
    · rw [hothers j hji] at hj
      exact absurd (hg.eq_of_owns (howns j y hj) hi) hji
  · have hcontra := hnone i
    rw [hi'] at hcontra
    cases hcontra

/-- Every turn in which no observer gives up keeps the news in brackets; a task that becomes known is
the last of them. -/
theorem turn (h : Bracketed s task told names) (hann : Announced s task heard)
    (hg : Guarded s owner task) (howns : ∀ j x, (s j).owed = some x → (s j).owns = true)
    (hturn : Standing.Turn false i (s i) owner task (s' i) owner' task' news)
    (hothers : ∀ j, j ≠ i → s' j = s j) :
    Bracketed s' task' (told ++ news)
      (names ++ (if task = none then task' else none).toList) := by
  generalize hold : s i = old at hturn
  generalize hnew : s' i = new at hturn
  cases hturn with
  | keep => exact h.retain (by rw [hold, hnew]) hothers
  | acquire => exact h.retain (by rw [hold, hnew]) hothers
  | surrender => exact h.retain (by rw [hold, hnew]) hothers
  | abort _ _ _ _ hfails => cases hfails
  | enter => exact h.retain (by rw [hold, hnew]) hothers
  | dismiss => exact h.retain (by rw [hold, hnew]) hothers
  | start name =>
    have hi : (s i).owns = true := by rw [hold]
    have hsettled := h.settled (hg.owed_eq_none howns hi (by rw [hold]))
    refine owe hg howns hi (by rw [hnew]) hothers ?_
    -- no task ran, so all brackets were closed
    rw [closing, List.append_nil] at hsettled
    rw [if_pos rfl, Option.toList_some, brackets_concat, ← hsettled, List.append_nil]
    rfl
  | finish name =>
    have hi : (s i).owns = true := by rw [hold]
    have htask : task = some name := hg.task_eq i name (by rw [hold])
    have hsettled := h.settled (hg.owed_eq_none howns hi (by rw [hold]))
    refine owe hg howns hi (by rw [hnew]) hothers ?_
    -- the end of the task is the news that was left
    rw [htask, closing] at hsettled
    simpa [htask, closing] using hsettled
  | @tell _ _ _ x howed =>
    have hsi : (s i).owed = some x := by
      rw [hold]
      exact howed
    -- the news that is owed is about the task that is registered now
    have hx : task = x := hann.owing i x hsi
    rw [newTask_self, Option.toList_none, List.append_nil]
    refine ⟨fun j y hj => ?_, fun _ => ?_⟩
    · by_cases hji : j = i
      · rw [hji, hnew] at hj
        cases hj
      · rw [hothers j hji] at hj
        exact absurd (hg.eq_of_owns (howns j y hj) (howns i x hsi)) hji
    · rw [hx, List.append_assoc]
      exact h.owing i x hsi

end Bracketed

/-- A user that owes no news tells none. -/
theorem Standing.Turn.told_eq_nil {fails : Bool} {i : Nat} {old new : Standing}
    {owner owner' : Option Nat} {task task' : Option String} {told : List (Option String)}
    (h : Turn fails i old owner task new owner' task' told) (howed : old.owed = none) :
    told = [] := by
  cases h with
  | tell _ _ _ hx =>
    rw [hx] at howed
    cases howed
  | _ => rfl

/-- Whoever hears some news knows the last of them. -/
theorem foldl_heard (told news : List (Option String)) :
    news.foldl (fun _ x => x) told.getLast?.join = (told ++ news).getLast?.join := by
  induction news generalizing told with
  | nil => rw [List.foldl_nil, List.append_nil]
  | cons x news ih =>
    have hlast : x = (told ++ [x]).getLast?.join := by
      rw [List.getLast?_concat]
      rfl
    rw [List.foldl_cons, hlast, ih, ← hlast, List.append_assoc, List.singleton_append]

namespace Phase

/-- The user has asked for the value and was not let in yet. -/
def asks : Phase → Bool
  | checking _ | trying _ | announcing _ | waiting _ | granted _ | entering _ | rejected _ => true
  | _ => false

theorem asks_woken (p : Phase) : p.woken.asks = p.asks := by
  cases p <;> rfl

theorem eq_idle_of_woken {p : Phase} (h : p.woken = idle) : p = idle := by
  cases p with
  | sleeping task => cases h
  | _ => exact h

theorem asks_of_owed {p : Phase} {x : Option String} (h : p.standing.owed = some x) :
    p.asks = false ∧ p ≠ idle := by
  cases p with
  | starting _ | telling _ => exact ⟨rfl, by simp⟩
  | inside s =>
    cases s with
    | _ => cases h
  | _ => cases h

end Phase

namespace LockMachine

variable {α : Type}

/-! ## The tasks of a run -/

/-- The long tasks that are registered in a run, in their order. -/
def tasks : LockMachine α → List (LockMove α) → List String
  | _, [] => []
  | m, mv :: moves => (m.registers? mv).toList ++ (m.step? mv).elim [] fun m' => m'.tasks moves

/-- A further move adds the task that it registers. -/
theorem tasks_concat {m m' : LockMachine α} {moves : List (LockMove α)} (mv : LockMove α)
    (hrun : m.run moves = some m') :
    m.tasks (moves ++ [mv]) = m.tasks moves ++ (m'.registers? mv).toList := by
  induction moves generalizing m with
  | nil =>
    cases hrun
    cases hstep : m'.step? mv <;> simp [tasks, hstep]
  | cons mv' moves ih =>
    obtain ⟨m₁, hstep, hrest⟩ := run_cons hrun
    rw [List.cons_append, tasks, tasks, hstep, Option.elim_some, Option.elim_some, ih hrest,
      List.append_assoc]

/-- The news of the lock are those of the tasks of these names, as far as they were told. -/
structure Informed (m : LockMachine α) (names : List String) : Prop where
  sound : m.Sound
  announced : Announced m.standing m.state.task m.told.toList.getLast?.join
  bracketed : Bracketed m.standing m.state.task m.told.toList names

theorem informed_initial (name : String) (value : α) : Informed { name, value } [] where
  sound := sound_initial name value
  announced := by
    refine ⟨fun i x h => ?_, fun _ => rfl⟩
    cases h
  bracketed := by
    refine ⟨fun i x h => ?_, fun _ => rfl⟩
    cases h

/-- Nobody moves, so nothing is told and no task is registered. -/
theorem Informed.unmoved {m m' : LockMachine α} {names : List String} (h : m.Informed names)
    (hsound : m'.Sound) (hstanding : m'.standing = m.standing) (htask : m'.state.task = m.state.task)
    (htold : m'.told = m.told) :
    m'.Informed (names ++ (if m.state.task = none then m'.state.task else none).toList) := by
  refine ⟨hsound, ?_, ?_⟩
  · rw [hstanding, htask, htold]
    exact h.announced
  · rw [hstanding, htask, htold, newTask_self, Option.toList_none, List.append_nil]
    exact h.bracketed

/-- What was told is kept in brackets by every step. -/
theorem Informed.step {m m' : LockMachine α} {mv : LockMove α} {names : List String}
    (h : m.Informed names) (hfails : mv.fails = false) (hs : m.step? mv = some m') :
    m'.Informed (names ++ (m.registers? mv).toList) := by
  have hsound : m'.Sound := h.sound.step hs
  rw [registers?_eq hs]
  rcases step_cases hs with ⟨i, f, s, -, -, -, rfl⟩ | ⟨-, hsame⟩ | ⟨i, news, -, hstep⟩
  · exact h.unmoved hsound rfl rfl rfl
  · exact h.unmoved hsound hsame.standing_eq hsame.task hsame.told
  · rw [hfails] at hstep
    have hothers : ∀ j, j ≠ i → m'.standing j = m.standing j := fun j hj => hstep.standing_eq hj
    have howns : ∀ j x, (m.standing j).owed = some x → (m.standing j).owns = true :=
      fun j x => Phase.owns_of_owed
    refine ⟨hsound, ?_, ?_⟩
    · rw [hstep.told, ← foldl_heard]
      exact h.announced.turn h.sound howns hstep.turn hothers
    · rw [hstep.told]
      exact h.bracketed.turn h.announced h.sound howns hstep.turn hothers

/-- The news of a run are those of the tasks that were registered in it. -/
theorem Informed.run {start m : LockMachine α} {moves : List (LockMove α)} (h : start.Informed [])
    (hrun : start.run moves = some m) (hfails : ∀ mv ∈ moves, mv.fails = false) :
    m.Informed (start.tasks moves) := by
  revert hfails
  refine run_induction (P := fun moves m => (∀ mv ∈ moves, mv.fails = false) →
    m.Informed (start.tasks moves)) (fun _ => h) ?_ hrun
  intro moves m mv m' hbefore ih hs hfails
  rw [tasks_concat mv hbefore]
  apply (ih fun mv' hmem => hfails mv' (List.mem_append_left _ hmem)).step _ hs
  exact hfails mv (List.mem_append_right _ (List.mem_singleton_self mv))

/-- Nobody owes news while the value has no owner. -/
theorem Sound.owed_eq_none {m : LockMachine α} (h : m.Sound) (hfree : m.owner = none) (i : Nat) :
    (m.standing i).owed = none := by
  apply Phase.owed_eq_none
  rw [← Phase.owns_standing, Bool.eq_false_iff]
  intro howns
  have howner := (h.owner_iff i).2 howns
  rw [hfree] at howner
  cases howner

/-- The news of a run are the first of those of its tasks. -/
theorem Informed.isPrefix {m : LockMachine α} {names : List String} (h : m.Informed names) :
    m.told.toList <+: brackets names := by
  by_cases howing : ∃ i x, (m.standing i).owed = some x
  · obtain ⟨i, x, hi⟩ := howing
    exact ⟨_, h.bracketed.owing i x hi⟩
  · refine ⟨_, h.bracketed.settled fun i => ?_⟩
    rw [Option.eq_none_iff_forall_ne_some]
    exact fun x hx => howing ⟨i, x, hx⟩

/-! ## Users that are turned away -/

/-- The user was let in, or has left since then. -/
structure Admitted (m : LockMachine α) (i : Nat) : Prop where
  phase : (m.phase i).asks = false
  answer : ∀ e, m.phase i = .idle → m.answer i ≠ .refused e

/-- Who makes a request was idle. -/
theorem phase_of_call {m m' : LockMachine α} {i : Nat} {r : Request}
    (hs : m.step? (.call i r) = some m') : m.phase i = .idle := by
  rw [step?] at hs
  split at hs
  · next a hget => rw [phase, hget]
  · cases hs

/-- A user that goes to a phase in which it asks for nothing, and is not refused by that. -/
theorem Admitted.of_move {m m' : LockMachine α} {i : Nat} {p : Phase} {answer : Answer}
    (hi : i < m.agents.size) (hagents : m'.agents = (m.move i p answer).agents)
    (hp : p.asks = false) (hanswer : ∀ e, answer ≠ .refused e) : m'.Admitted i := by
  have hget : m'.agents[i]? = some ⟨p, answer⟩ := by
    rw [hagents, getElem?_move m p answer hi, if_pos rfl]
  constructor
  · rw [LockMachine.phase, hget]
    exact hp
  · intro e _
    rw [LockMachine.answer, hget]
    exact hanswer e

/-- The next step of a user that was let in. -/
theorem Admitted.proceed {m m' : LockMachine α} {i : Nat} (h : m.Admitted i)
    (hs : m.proceed? i = some m') : m'.Admitted i := by
  have hi : m.phase i ≠ .idle → i < m.agents.size := lt_size_of_phase rfl
  have hasks := h.phase
  unfold proceed? at hs
  cases hp : m.phase i with
  | idle | inside _ | sleeping _ =>
    rw [hp] at hs
    cases hs
  -- a user that is let in asks for nothing
  | checking _ | trying _ | announcing _ | waiting _ | granted _ | entering _ | rejected _ =>
    rw [hp] at hasks
    cases hasks
  | starting _ | yielding _ | judging _ | ending _ | telling _ | leaving =>
    rw [hp] at hs hi
    cases hs
    exact .of_move (hi (by simp)) rfl rfl (by simp)
  | draining task =>
    rw [hp] at hs hi
    cases hs
    refine .of_move (hi (by simp)) rfl ?_ (by simp)
    split <;> rfl
  | returning task =>
    rw [hp] at hs hi
    dsimp only at hs
    split at hs
    · cases hs
      exact .of_move (hi (by simp)) rfl rfl (by simp)
    · cases hs

/-- A user that was let in is not turned away until it asks again. -/
theorem Admitted.step {m m' : LockMachine α} {mv : LockMove α} {i : Nat} (h : m.Admitted i)
    (hs : m.step? mv = some m') (hcall : ∀ r, mv ≠ .call i r) : m'.Admitted i := by
  by_cases hi : mv.agent? = some i
  · cases mv with
    | join | cancel => cases hi
    | call j r =>
      cases hi
      exact absurd rfl (hcall r)
    | update j f =>
      obtain ⟨s, -, -, rfl⟩ := step_update hs
      exact ⟨h.phase, h.answer⟩
    | yield j =>
      cases hi
      rw [step?] at hs
      split at hs
      · next task hp =>
        cases hs
        exact .of_move (lt_size_of_phase hp (by simp)) rfl rfl (by simp)
      · cases hs
    | release j =>
      cases hi
      rw [step?] at hs
      split at hs
      · next task hp =>
        cases hs
        exact .of_move (lt_size_of_phase hp (by simp)) rfl rfl (by simp)
      · next s _ hp =>
        cases hs
        exact .of_move (lt_size_of_phase hp (by simp)) rfl rfl (by simp)
      · cases hs
    | proceed j =>
      cases hi
      exact h.proceed hs
    | fail j =>
      cases hi
      rw [step?] at hs
      split at hs
      · next task hp =>
        cases hs
        exact .of_move (lt_size_of_phase hp (by simp)) rfl rfl (by simp)
      · next task hp =>
        cases hs
        exact .of_move (lt_size_of_phase hp (by simp)) rfl rfl (by simp)
      · cases hs
  · -- the others wake it at most
    obtain ⟨hphase, hanswer⟩ := step_frame hs hi
    have hsame : (m'.phase i).asks = (m.phase i).asks ∧ (m'.phase i = .idle → m.phase i = .idle) := by
      rcases hphase with hphase | hphase
      · rw [hphase]
        exact ⟨rfl, id⟩
      · rw [hphase]
        exact ⟨Phase.asks_woken _, Phase.eq_idle_of_woken⟩
    constructor
    · rw [hsame.1]
      exact h.phase
    · intro e hidle
      rw [hanswer]
      exact h.answer e (hsame.2 hidle)

/-- A user that was let in is not refused before it calls again. -/
theorem Admitted.run {m m' : LockMachine α} {moves : List (LockMove α)} {i : Nat} (h : m.Admitted i)
    (hrun : m.run moves = some m') (hcall : ∀ r, .call i r ∉ moves) : m'.Admitted i := by
  refine run_invariant (P := fun m => m.Admitted i) (fun mv hmem m m' hm hs => hm.step hs ?_) h hrun
  rintro r rfl
  exact hcall r hmem

/-- Only a user that owes news tells any. -/
theorem told_eq_of_owed {m m' : LockMachine α} {mv : LockMove α} {i : Nat}
    (hs : m.step? mv = some m') (hi : mv.agent? = some i) (howed : (m.standing i).owed = none) :
    m'.told = m.told := by
  rcases step_cases hs with ⟨j, f, s, -, -, -, rfl⟩ | ⟨-, hsame⟩ | ⟨j, news, hj, hstep⟩
  · rfl
  · exact hsame.told
  · rw [hi] at hj
    cases hj
    have htold := hstep.told
    rw [hstep.turn.told_eq_nil howed, List.append_nil] at htold
    exact Array.toList_inj.1 htold

/-- The moves are a request of a user with what happens up to its refusal. -/
def Refusal (m : LockMachine α) (i : Nat) (attempt : List (LockMove α)) : Prop :=
  ∃ r rest m' e, attempt = .call i r :: rest ∧ (∀ r', .call i r' ∉ rest) ∧
    m.run attempt = some m' ∧ m'.phase i = .idle ∧ m'.answer i = .refused e

/-- A user that is turned away registers no task and tells no news on its way. -/
theorem Refusal.silent {m mid mid' : LockMachine α} {i : Nat}
    {attempt before after : List (LockMove α)} {mv : LockMove α} (h : m.Refusal i attempt)
    (hsplit : attempt = before ++ mv :: after) (hi : mv.agent? = some i)
    (hbefore : m.run before = some mid) (hs : mid.step? mv = some mid') :
    mid'.told = mid.told ∧ mid.registers? mv = none := by
  obtain ⟨r, rest, m', e, hattempt, hcall, hrun, hidle, hanswer⟩ := h
  -- the moves that follow are no further request
  have hafter : ∀ r', .call i r' ∉ after := by
    intro r' hmem
    apply hcall r'
    cases before with
    | nil =>
      rw [hattempt] at hsplit
      cases hsplit
      exact hmem
    | cons mv' before =>
      rw [hattempt] at hsplit
      cases hsplit
      exact List.mem_append_right _ (List.mem_cons_of_mem _ hmem)
  have hrest : mid'.run after = some m' := by
    rw [hsplit, run_append, hbefore, Option.bind_some] at hrun
    obtain ⟨m₁, hs₁, hrest⟩ := run_cons hrun
    rw [hs] at hs₁
    cases hs₁
    exact hrest
  -- had it been let in on the way, it would not be refused in the end
  have hnot : ¬ mid'.Admitted i := by
    intro hadmitted
    exact (hadmitted.run hrest hafter).answer e hidle hanswer
  refine ⟨told_eq_of_owed hs hi ?_, ?_⟩
  · rw [Option.eq_none_iff_forall_ne_some]
    intro x howed
    obtain ⟨hasks, hne⟩ := Phase.asks_of_owed howed
    have hadmitted : mid.Admitted i := ⟨hasks, fun e hidle => absurd hidle hne⟩
    apply hnot
    apply hadmitted.step hs
    rintro r' rfl
    exact hne (phase_of_call hs)
  · rw [Option.eq_none_iff_forall_ne_some]
    intro task hreg
    obtain ⟨j, r', rfl, hp, -, -⟩ := registers?_eq_some.1 hreg
    cases hi
    apply hnot
    rw [step_registers hreg hs]
    exact .of_move (lt_size_of_phase hp (by simp)) rfl rfl (by simp)

/-! ## The news of a run -/

/-- What the news of a run say about its long tasks, and about those that were not let in. -/
structure Bracketing (start : LockMachine α) (moves : List (LockMove α)) (m : LockMachine α) :
    Prop where
  /-- The news are the start and the end of each task that was registered, in their order. -/
  alternate : m.told.toList <+: brackets (start.tasks moves)
  /-- While the value is free, only the end of the task that runs is left to be told. -/
  complete : m.owner = none → m.told.toList ++ closing m.state.task = brackets (start.tasks moves)
  /-- While the value is free, the last news are of the task that runs. -/
  known : m.owner = none → m.told.toList.getLast?.join = m.state.task
  /-- A user that is turned away registers no task and tells no news, by none of its moves. -/
  silent : ∀ i attempt, m.Refusal i attempt →
    ∀ before mv after mid mid', attempt = before ++ mv :: after → mv.agent? = some i →
      m.run before = some mid → mid.step? mv = some mid' →
        mid'.told = mid.told ∧ mid.registers? mv = none

/-- However the users of a lock interleave, the news bracket its long tasks, if no observer gives
up. -/
theorem news_bracket_tasks {name : String} {value : α} {moves : List (LockMove α)}
    {m : LockMachine α} (hrun : ({ name, value } : LockMachine α).run moves = some m)
    (hfails : ∀ mv ∈ moves, mv.fails = false) : Bracketing { name, value } moves m := by
  have h : m.Informed (tasks { name, value } moves) := (informed_initial name value).run hrun hfails
  refine ⟨h.isPrefix, fun hfree => ?_, fun hfree => ?_, ?_⟩
  · exact h.bracketed.settled (h.sound.owed_eq_none hfree)
  · exact h.announced.settled (h.sound.owed_eq_none hfree)
  · intro i attempt hattempt before mv after mid mid' hsplit hi hbefore hs
    exact hattempt.silent hsplit hi hbefore hs

/-- A task that has ended, and a second one that yields and has given the value up. -/
def secondTask : List (LockMove Nat) :=
  [.join, .join, .call 0 (.long "layout"), .proceed 0, .proceed 0, .proceed 0, .proceed 0, .release 0,
   .proceed 0, .proceed 0, .proceed 0, .call 1 (.tryLong "cleanup"), .proceed 1, .proceed 1,
   .proceed 1, .proceed 1, .yield 1, .proceed 1]

/-- The second task runs while the value is free, and a third is turned away. -/
theorem news_bracket_tasks_second : ∃ m : LockMachine Nat,
    ({ name := "State", value := 0 } : LockMachine Nat).run secondTask = some m ∧
    (∀ mv ∈ secondTask, mv.fails = false) ∧ m.owner = none ∧
    m.told = #[some "layout", none, some "cleanup"] ∧
    m.Refusal 0 [.call 0 (.long "export"), .proceed 0] ∧
    Bracketing { name := "State", value := 0 } secondTask m := by
  have hfails : ∀ mv ∈ secondTask, mv.fails = false := by
    simp [secondTask, LockMove.fails]
  refine ⟨?machine, ?run, hfails, ?owner, ?told, ?refusal, news_bracket_tasks ?run hfails⟩
  case run => rfl
  case owner => rfl
  case told => rfl
  case refusal =>
    exact ⟨.long "export", [.proceed 0], _, .busy "State" (some "cleanup"), rfl, by simp, rfl, rfl, rfl⟩

end LockMachine

end LiveGraph
