import LiveGraph.Proofs.Layout.Sequence

/-!
# What a layout lets others see

A layout gives the graph out of its hands only while it yields, and then all its changes are published:
whoever gets hold of the graph in between, and whoever follows the events, sees the graph as a flush left
it. The report of a layout counts its relaxations, and tells whether the layout was asked to stop while
it could still take notice. In the end the lock has no task, and the news of the task are one pair; a
layout that is turned away does and tells nothing.
-/

namespace LiveGraph

namespace Layout

/-! ## Reports and logs -/

namespace Progress

/-- The report counts the relaxations made. -/
def Adds (iterations : Nat) : Progress → Prop
  | ready | asking | returned _ => True
  | relaxing left report => report.iterations + (left + 1) = iterations ∧ report.cancelled = false
  | flushing left report | publishing left report | yielding left report =>
    report.iterations + left = iterations ∧ report.cancelled = false
  | closing result | ending result | leaving result =>
    ∃ report, result = .ok report ∧ report.iterations ≤ iterations ∧
      (report.cancelled = false → report.iterations = iterations)

/-- Between two rounds, the rounds done and the rounds left are those that were asked for. -/
theorem adds_loop {iterations left : Nat} {report : LayoutReport}
    (hcount : report.iterations + left = iterations) (hcancelled : report.cancelled = false) :
    (loop left report).Adds iterations := by
  cases left with
  | zero => exact ⟨report, rfl, by omega, fun _ => by omega⟩
  | succ left => exact ⟨hcount, hcancelled⟩

/-- The layout has told of its task, and since then of changes only. -/
def Opened (log : List Event) : Prop :=
  ∃ updates, log = .task (some taskName) :: updates ∧ ∀ e ∈ updates, e.kind?.isSome = true

/-- The layout has also told of the end of its task. -/
def Closed (log : List Event) : Prop :=
  ∃ updates, log = .task (some taskName) :: (updates ++ [.task none]) ∧
    ∀ e ∈ updates, e.kind?.isSome = true

/-- What the layout has published so far. -/
def Logs : Progress → List Event → Prop
  | ready, log | asking, log => log = []
  | relaxing _ _, log | flushing _ _, log | publishing _ _, log | yielding _ _, log | closing _, log
  | ending _, log => Opened log
  | leaving _, log => Closed log
  | returned _, _ => True

/-- A new round publishes nothing yet. -/
theorem logs_loop {log : List Event} (h : Opened log) (left : Nat) (report : LayoutReport) :
    (loop left report).Logs log := by
  cases left <;> exact h

/-- The layout was asked to stop, and has taken notice. -/
def wasStopped : Progress → Bool
  | closing result | ending result | leaving result | returned result =>
    result.toOption.any (·.cancelled)
  | _ => false

theorem wasStopped_loop (left : Nat) (report : LayoutReport) (h : report.cancelled = false) :
    (loop left report).wasStopped = false := by
  cases left with
  | zero => exact h
  | succ left => rfl

/-- A layout that was stopped has left its rounds. -/
theorem isClosed_of_wasStopped {p : Progress} (h : p.wasStopped = true) : p.isClosed = true := by
  cases p with
  | closing | ending | leaving | returned => rfl
  | _ => cases h

/-- The layout was let into the section of its task, and has not left it. -/
def isBegun : Progress → Bool
  | ready | asking | returned _ => false
  | _ => true

theorem isBegun_loop (left : Nat) (report : LayoutReport) : (loop left report).isBegun = true := by
  cases left <;> rfl

/-- From the first round to the last, the user has its task registered. -/
theorem Fits.task_isSome {resource : String} {p : Progress} {phase : Phase}
    (h : p.Fits resource phase) (hbegun : p.isBegun = true) (hclosed : p.isClosed = false) :
    phase.standing.task.isSome = true := by
  cases p with
  | ready | asking | returned => cases hbegun
  | closing | ending | leaving => cases hclosed
  | yielding left report =>
    have hyields : phase.Yields taskName := h
    rw [hyields.task_eq]
    rfl
  | _ =>
    cases h
    rfl

/-- The task has been taken off the lock, which a user in the given phase has not left yet. -/
def Freed : Progress → Phase → Prop
  | ending _, p => p = .telling taskName
  | leaving _, _ => True
  | _, _ => False

end Progress

namespace Thread

variable {job : Job} {t t' : Thread}

/-- A relaxation is counted when it is made, and a layout stops early only when it is asked to. -/
theorem Course.adds {p p' : Progress} (hcourse : Course job t t' p p') (h : p.Adds job.iterations) :
    p'.Adds job.iterations := by
  cases hcourse with
  | call | refuse | leave => trivial
  | enter => exact Progress.adds_loop (Nat.zero_add _) rfl
  | relax =>
    obtain ⟨hcount, hcancelled⟩ := h
    exact ⟨by dsimp only; omega, hcancelled⟩
  | stop =>
    obtain ⟨hcount, -⟩ := h
    exact ⟨_, rfl, by dsimp only; omega, fun hcancelled => by cases hcancelled⟩
  | resume => exact Progress.adds_loop h.1 h.2
  | _ => exact h

/-- What the layout has published agrees with where it is, step by step. -/
theorem Course.logs {p p' : Progress} (hcourse : Course job t t' p p') (h : p.Logs t.log) :
    p'.Logs t'.log := by
  cases hcourse with
  -- events of a round come behind those of the earlier rounds
  | @publish left report e _ _ hlog hkind =>
    obtain ⟨updates, hopened, hkinds⟩ := h
    rw [hlog, hopened]
    refine ⟨updates ++ [e], rfl, fun e' he' => ?_⟩
    rcases List.mem_append.1 he' with he' | he'
    · exact hkinds e' he'
    · rw [List.mem_singleton] at he'
      rw [he']
      exact hkind
  | refuse | leave => trivial
  -- nothing is published before the layout is told to have started
  | enter htells _ =>
    have hempty : t.log = [] := h
    rw [htells.log, hempty]
    exact Progress.logs_loop ⟨[], rfl, by simp⟩ _ _
  | relax _ _ _ hlog | flush _ _ _ hlog =>
    rw [hlog]
    exact h
  | resume hsame =>
    rw [hsame.log]
    exact Progress.logs_loop h _ _
  | tell htells =>
    obtain ⟨updates, hopened, hkinds⟩ := h
    rw [htells.log, hopened]
    exact ⟨updates, rfl, hkinds⟩
  | call hsame | ask hsame | yield hsame | rest hsame | stop hsame | close hsame | clear hsame =>
    rw [hsame.log]
    exact h

/-- Only the check at the end of a yield can make a layout take notice. -/
theorem Course.wasStopped_eq {p p' : Progress} (hcourse : Course job t t' p p')
    (hphase : t.system.lock.phase job.user ≠ .judging taskName) : p'.wasStopped = p.wasStopped := by
  cases hcourse with
  | enter => exact Progress.wasStopped_loop _ _ rfl
  | stop _ hjudging | resume _ hjudging => exact absurd hjudging hphase
  | _ => rfl

/-! ## The phases of the user -/

namespace Steady

/-- The layout has the graph to itself as long as it is in its section. -/
theorem holds_of_isBegun (h : Steady job t) (hp : t.progress.isBegun = true) :
    t.system.lock.Holds job.user := by
  have hfits := h.fits
  generalize t.progress = p at hfits hp
  cases p with
  | ready | asking | returned => cases hp
  | yielding left report => exact holds_of_yields hfits
  | ending result =>
    have hends : (t.system.lock.phase job.user).Ends taskName := hfits
    exact holds_of_owns hends.owns
  | leaving result =>
    have hleaving : t.system.lock.phase job.user = .leaving := hfits
    exact holds_of_owns (by rw [hleaving]; rfl)
  | _ =>
    have hinside : t.system.lock.phase job.user = .inside (.long taskName) := hfits
    exact holds_of_owns (by rw [hinside]; rfl)

/-- The check at the end of a yield is made by a layout that yields. -/
theorem yielding_of_judging (h : Steady job t)
    (hp : t.system.lock.phase job.user = .judging taskName) :
    ∃ left report, t.progress = .yielding left report := by
  have hfits := h.fits
  rw [hp] at hfits
  generalize t.progress = p at hfits
  cases p with
  | yielding left report => exact ⟨left, report, rfl⟩
  | asking | ending => cases hfits
  | _ => exact absurd hfits (by simp [Progress.Fits])

/-- While the task is registered, the graph is out of the layout's hands only in a yield. -/
theorem yielding_of_not_owner (h : Steady job t)
    (htask : (t.system.lock.standing job.user).task.isSome = true)
    (howner : t.system.lock.owner ≠ some job.user) :
    ∃ left report, t.progress = .yielding left report := by
  have hfits := h.fits
  have howns : (t.system.lock.phase job.user).owns = false := by
    rw [← Bool.not_eq_true]
    exact fun howns => howner (h.owner_of_owns howns)
  rw [LockMachine.standing] at htask
  generalize t.system.lock.phase job.user = phase at hfits howns htask
  generalize t.progress = p at hfits
  -- everywhere else the user owns the graph, or has no task
  cases p with
  | yielding left report => exact ⟨left, report, rfl⟩
  | asking =>
    cases hfits with
    | starting => cases howns
    | _ => cases htask
  | ending result =>
    cases hfits with
    | _ => cases howns
  | ready | returned =>
    cases hfits
    cases htask
  | _ =>
    cases hfits
    cases howns

/-- A task stays registered as long as the layout has not closed it. -/
theorem keeps_task (h : Steady job t) (honward : Onward job t t')
    (hclosed' : t'.progress.isClosed = false)
    (hreg : (t.system.lock.standing job.user).task.isSome = true) :
    (t'.system.lock.standing job.user).task.isSome = true := by
  have hcourse := honward.course
  have hfits' := honward.fits
  generalize hp : t.progress = p at hcourse
  generalize t'.progress = p' at hcourse hfits' hclosed'
  have hfits := h.fits_of hp
  rw [LockMachine.standing] at hreg ⊢
  -- a user that is still to be let in has no task to keep
  cases hcourse with
  | call =>
    have hidle : t.system.lock.phase job.user = .idle := hfits
    rw [hidle] at hreg
    cases hreg
  | ask _ hstarting =>
    generalize t.system.lock.phase job.user = phase at hfits hreg hstarting
    cases hfits with
    | starting => exact absurd rfl hstarting
    | _ => cases hreg
  | refuse | leave => cases hclosed'
  | enter | resume => exact hfits'.task_isSome (Progress.isBegun_loop _ _) hclosed'
  | _ => exact hfits'.task_isSome rfl hclosed'

end Steady

/-! ## What has happened -/

/-- At some turn the condition held of the turns before it, the thread and the turn. -/
def Happened (job : Job) (start : Thread) (turns : List Turn)
    (P : List Turn → Thread → Turn → Prop) : Prop :=
  ∃ before turn after t, turns = before ++ turn :: after ∧ start.run job before = some t ∧
    P before t turn

variable {start : Thread} {turns : List Turn} {turn : Turn} {P : List Turn → Thread → Turn → Prop}

theorem not_happened_nil : ¬ Happened job start [] P := by
  rintro ⟨before, turn, after, t, hsplit, -⟩
  simp at hsplit

/-- What has happened after one more turn. -/
theorem happened_concat (hrun : start.run job turns = some t) :
    Happened job start (turns ++ [turn]) P ↔ Happened job start turns P ∨ P turns t turn := by
  constructor
  · rintro ⟨before, turn', after, t₁, hsplit, hbefore, hP⟩
    rcases List.eq_nil_or_concat after with rfl | ⟨after', last, rfl⟩
    · obtain ⟨rfl, hlast⟩ := List.append_inj' hsplit rfl
      cases hlast
      rw [hrun] at hbefore
      cases hbefore
      exact .inr hP
    · rw [List.concat_eq_append, ← List.cons_append, ← List.append_assoc] at hsplit
      obtain ⟨hturns, -⟩ := List.append_inj' hsplit rfl
      exact .inl ⟨before, turn', after', t₁, hturns, hbefore, hP⟩
  · rintro (⟨before, turn', after, t₁, rfl, hbefore, hP⟩ | hP)
    · exact ⟨before, turn', after ++ [turn], t₁, by simp, hbefore, hP⟩
    · exact ⟨turns, turn, [], t, rfl, hrun, hP⟩

/-- A request to stop came while the task was registered. -/
def CancelArrived (job : Job) (start : Thread) (turns : List Turn) : Prop :=
  Happened job start turns fun _ t turn =>
    turn = .other (.lock .cancel) ∧ (t.system.lock.standing job.user).task.isSome = true

/-- Such a request had come when the layout made the check at the end of a yield. -/
def CancelSeen (job : Job) (start : Thread) (turns : List Turn) : Prop :=
  Happened job start turns fun before t turn =>
    turn = .own ∧ t.system.lock.phase job.user = .judging taskName ∧ CancelArrived job start before

/-- The layout was let in, and found the graph `data`. -/
def Entered (job : Job) (start : Thread) (turns : List Turn) (data : GraphData) : Prop :=
  Happened job start turns fun _ t turn =>
    turn = .own ∧ t.system.lock.phase job.user = .starting taskName ∧ t.system.lock.value = data

/-- A step of the layout changed the graph, or published something. -/
def Interfered (job : Job) (start : Thread) (turns : List Turn) : Prop :=
  Happened job start turns fun _ t turn => turn = .own ∧ ∃ t', t.own? job = some t' ∧ ¬ Same t t'

/-- What a layout knows and has done goes back to what has happened. -/
structure Recorded (job : Job) (start : Thread) (turns : List Turn) (t : Thread) : Prop where
  steady : Steady job t
  adds : t.progress.Adds job.iterations
  logs : t.progress.Logs t.log
  free : t.progress.Freed (t.system.lock.phase job.user) → t.system.lock.state.task = none
  arrived : t.progress.isClosed = false →
    (CancelArrived job start turns ↔ t.system.lock.Asked job.user)
  seen : CancelSeen job start turns ↔ t.progress.wasStopped = true
  harmless : t.progress.isBegun = false → t.progress.isClosed = false →
    ¬ Interfered job start turns
  replays : t.progress.isBegun = true →
    ∃ data, Entered job start turns data ∧ Replays job data t

namespace Recorded

/-- A layout that has not begun. -/
theorem initial {s : System} (hcoherent : s.Coherent) (hconsistent : s.lock.value.Consistent)
    (hidle : s.lock.phase job.user = .idle) :
    Recorded job { system := s } [] { system := s } where
  steady := ⟨hcoherent, hconsistent, hidle, fun hholds => absurd hholds (not_holds_of_idle hidle),
    fun hflushed => by cases hflushed⟩
  adds := trivial
  logs := rfl
  free := False.elim
  arrived := by
    intro _
    refine iff_of_false not_happened_nil ?_
    rw [LockMachine.Asked, LockMachine.standing, hidle]
    rintro ⟨hreg, -⟩
    cases hreg
  seen := iff_of_false not_happened_nil (by simp [Progress.wasStopped])
  harmless _ _ := not_happened_nil
  replays hbegun := by cases hbegun

/-! ### Moves of others -/

section

variable {mv : System.Move}

/-- Once its task is cleared, the others register none before the layout is gone, because it still owns
the graph. -/
theorem free_other (h : Recorded job start turns t) (hstep : t.step? job (.other mv) = some t')
    (hfreed : t'.progress.Freed (t'.system.lock.phase job.user)) :
    t'.system.lock.state.task = none := by
  have hu := undisturbed h.steady.coherent hstep
  have hfits := h.steady.fits
  -- the user is in the same phase as before, and owns the graph there
  have hphase : t.progress.Freed (t.system.lock.phase job.user) ∧
      (t.system.lock.phase job.user).owns = true ∧
      ∀ r, t.system.lock.phase job.user ≠ .entering r := by
    rw [hu.progress] at hfreed
    generalize t.progress = p at hfits hfreed
    cases p with
    | ending result =>
      have hends : (t.system.lock.phase job.user).Ends taskName := hfits
      have hsame : t'.system.lock.phase job.user = t.system.lock.phase job.user := by
        rcases hu.phase with hsame | hwoken
        · exact hsame
        · rw [hwoken, hends.woken_eq]
      have htelling : t.system.lock.phase job.user = .telling taskName := hsame.symm.trans hfreed
      rw [htelling]
      exact ⟨rfl, rfl, by simp⟩
    | leaving result =>
      have hleaving : t.system.lock.phase job.user = .leaving := hfits
      rw [hleaving]
      exact ⟨trivial, rfl, by simp⟩
    | _ => cases hfreed
  obtain ⟨hfreed, howns, hentering⟩ := hphase
  rcases System.step_lock (system_other hstep) with ⟨hlock, -⟩ | ⟨lmv, hlock, -⟩
  · rw [hlock]
    exact h.free hfreed
  · exact h.steady.coherent.sound.task_none howns hentering hlock (h.free hfreed)

/-- A request to cancel has arrived if and only if the flag is set; the others set it, and nobody else. -/
theorem arrived_other (h : Recorded job start turns t) (hrun : start.run job turns = some t)
    (hstep : t.step? job (.other mv) = some t') (hclosed : t.progress.isClosed = false) :
    CancelArrived job start (turns ++ [.other mv]) ↔ t'.system.lock.Asked job.user := by
  have hu := undisturbed h.steady.coherent hstep
  have hkeep : (t.system.lock.standing job.user).task.isSome = true →
      (t'.system.lock.standing job.user).task.isSome = true := by
    rw [hu.standing]
    exact id
  rw [CancelArrived, happened_concat hrun, ← CancelArrived, h.arrived hclosed]
  rcases System.step_lock (system_other hstep) with ⟨hlock, hmv⟩ | ⟨lmv, hlock, hmv⟩
  · rw [hlock]
    simp [hmv]
  · rw [h.steady.coherent.sound.asked_step hlock hkeep, hmv]
    simp

/-- The replay stands still while the others move. -/
theorem replays_other (h : Recorded job start turns t) (hrun : start.run job turns = some t)
    (hstep : t.step? job (.other mv) = some t') (hbegun : t.progress.isBegun = true) :
    ∃ data, Entered job start (turns ++ [.other mv]) data ∧ Replays job data t' := by
  have hu := undisturbed h.steady.coherent hstep
  have hholds := h.steady.holds_of_isBegun hbegun
  obtain ⟨data, hentered, hreplays⟩ := h.replays hbegun
  refine ⟨data, (happened_concat hrun).2 (.inl hentered), ?_⟩
  refine hreplays.congr hu.name (hu.value hholds) ?_ (by rw [hu.progress]) (by rw [hu.progress])
  rw [hu.log, h.steady.outgoing_undisturbed hu hholds]

/-- What is recorded stays true when the others move. -/
theorem other (h : Recorded job start turns t) (hrun : start.run job turns = some t)
    (hstep : t.step? job (.other mv) = some t') :
    Recorded job start (turns ++ [.other mv]) t' := by
  have hu := undisturbed h.steady.coherent hstep
  constructor
  case steady => exact h.steady.other hstep
  case adds =>
    rw [hu.progress]
    exact h.adds
  case logs =>
    rw [hu.progress, hu.log]
    exact h.logs
  case free => exact h.free_other hstep
  case arrived =>
    rw [hu.progress]
    exact h.arrived_other hrun hstep
  case seen =>
    rw [CancelSeen, happened_concat hrun, ← CancelSeen, h.seen, hu.progress]
    simp
  case harmless =>
    rw [hu.progress, Interfered, happened_concat hrun, ← Interfered]
    simpa using h.harmless
  case replays =>
    rw [hu.progress]
    exact h.replays_other hrun hstep

end

/-! ### Steps of the layout -/

/-- The layout clears its task before it tells the observers. -/
theorem free_own (h : Recorded job start turns t) (honward : Onward job t t')
    (hfreed : t'.progress.Freed (t'.system.lock.phase job.user)) :
    t'.system.lock.state.task = none := by
  have hcourse := honward.course
  generalize hp : t.progress = p at hcourse
  generalize t'.progress = p' at hcourse hfreed
  cases hcourse with
  | clear _ htask' => exact htask'
  | tell _ hphase htask' =>
    rw [htask']
    apply h.free
    rw [hp]
    exact hphase
  -- giving the task up is not yet clearing it
  | close _ hphase' =>
    have htelling : t'.system.lock.phase job.user = .telling taskName := hfreed
    rw [hphase'] at htelling
    cases htelling
  | enter =>
    cases hiterations : job.iterations <;> rw [hiterations] at hfreed <;> cases hfreed
  | @resume left => cases left <;> cases hfreed
  | _ => cases hfreed

/-- A layout does not come back to its rounds. -/
theorem isClosed_of_own (hcourse : Course job t t' t.progress t'.progress)
    (hclosed : t'.progress.isClosed = false) : t.progress.isClosed = false := by
  generalize t.progress = p at hcourse
  generalize t'.progress = p' at hcourse hclosed
  cases hcourse with
  | close | clear | tell | leave => cases hclosed
  | _ => rfl

/-- The layout itself neither sets nor clears the flag while it is at its rounds. -/
theorem arrived_own (h : Recorded job start turns t) (hrun : start.run job turns = some t)
    (honward : Onward job t t') (hclosed' : t'.progress.isClosed = false) :
    CancelArrived job start (turns ++ [.own]) ↔ t'.system.lock.Asked job.user := by
  rw [CancelArrived, happened_concat hrun, ← CancelArrived,
    h.arrived (isClosed_of_own honward.course hclosed')]
  rcases honward.lock with hlock | ⟨mv, hagent, hlock⟩
  · rw [hlock]
    simp
  · have hmv : mv ≠ .cancel := by
      rintro rfl
      cases hagent
    rw [h.steady.coherent.sound.asked_step hlock (h.steady.keeps_task honward hclosed')]
    simp [hmv]

/-- The check at the end of a yield finds the requests that have come. -/
theorem seen_own (h : Recorded job start turns t) (hrun : start.run job turns = some t)
    (honward : Onward job t t') :
    CancelSeen job start (turns ++ [.own]) ↔ t'.progress.wasStopped = true := by
  rw [CancelSeen, happened_concat hrun, ← CancelSeen, h.seen]
  have hcourse := honward.course
  by_cases hjudging : t.system.lock.phase job.user = .judging taskName
  · -- the layout looks at the flag, which is set if and only if a request has arrived
    obtain ⟨left, report, hp⟩ := h.steady.yielding_of_judging hjudging
    have harrived := h.arrived (by rw [hp]; rfl)
    have hcancelled := h.adds
    rw [hp] at hcancelled hcourse
    have hreg : (t.system.lock.standing job.user).task.isSome = true := by
      rw [LockMachine.standing, hjudging]
      rfl
    rw [hp, harrived, LockMachine.Asked]
    generalize t'.progress = p' at hcourse
    cases hcourse with
    | rest _ hnot => exact absurd hjudging hnot
    | stop _ _ hasked => exact iff_of_true (.inr ⟨rfl, hjudging, hreg, hasked⟩) rfl
    | resume _ _ hasked =>
      rw [Progress.wasStopped_loop _ _ hcancelled.2, hasked]
      simp [Progress.wasStopped]
  · rw [hcourse.wasStopped_eq hjudging]
    simp [hjudging]

/-- Asking for the lock interferes with nobody. -/
theorem harmless_own (h : Recorded job start turns t) (hrun : start.run job turns = some t)
    (hstep : t.own? job = some t') (hpending : t.progress.isBegun = false)
    (hclosed : t.progress.isClosed = false) (hsame : Same t t') :
    ¬ Interfered job start (turns ++ [.own]) := by
  rw [Interfered, happened_concat hrun, ← Interfered]
  rintro (hbefore | ⟨-, t₁, hstep₁, hnot⟩)
  · exact h.harmless hpending hclosed hbefore
  · rw [hstep] at hstep₁
    cases hstep₁
    exact hnot hsame

/-- The replay makes the steps of the layout, from the graph that it found when it was let in. -/
theorem replays_own (h : Recorded job start turns t) (hrun : start.run job turns = some t)
    (honward : Onward job t t') (hbegun' : t'.progress.isBegun = true) :
    ∃ data, Entered job start (turns ++ [.own]) data ∧ Replays job data t' := by
  by_cases hbegun : t.progress.isBegun = true
  · obtain ⟨data, hentered, hreplays⟩ := h.replays hbegun
    refine ⟨data, (happened_concat hrun).2 (.inl hentered),
      hreplays.own honward.course honward.name h.steady.consistent ?_ ?_ fun result hp => ?_⟩
    · intro hp
      rw [hp] at hbegun
      cases hbegun
    · intro hp
      rw [hp] at hbegun
      cases hbegun
    · exact h.steady.outgoing_eq_nil (h.steady.holds_of_isBegun hbegun) hp (by simp)
  · -- it is let in by this step, with nothing published so far
    have hcourse := honward.course
    have hlogs := h.logs
    generalize hp : t.progress = p at hcourse hbegun hlogs
    generalize hp' : t'.progress = p' at hcourse hbegun'
    cases hcourse with
    | enter htells hphase =>
      have hholds : t.system.lock.Holds job.user := holds_of_owns (by rw [hphase]; rfl)
      have hout := h.steady.outgoing_eq_nil hholds hp (by simp)
      exact ⟨t.system.lock.value, (happened_concat hrun).2 (.inr ⟨rfl, hphase, rfl⟩),
        .enter hp' htells hlogs hout⟩
    | call | ask | refuse | leave => cases hbegun'
    | _ => exact absurd rfl hbegun

/-- What is recorded stays true when the layout moves. -/
theorem own (h : Recorded job start turns t) (hrun : start.run job turns = some t)
    (hstep : t.own? job = some t') : Recorded job start (turns ++ [.own]) t' := by
  have honward := h.steady.onward hstep
  constructor
  case steady => exact h.steady.own hstep
  case adds => exact honward.course.adds h.adds
  case logs => exact honward.course.logs h.logs
  case free => exact h.free_own honward
  case arrived => exact h.arrived_own hrun honward
  case seen => exact h.seen_own hrun honward
  case harmless =>
    intro hbegun' hclosed'
    have hcourse := honward.course
    have hharmless := h.harmless_own hrun hstep
    generalize t.progress = p at hcourse hharmless
    generalize t'.progress = p' at hcourse hbegun' hclosed'
    cases hcourse with
    | call hsame | ask hsame => exact hharmless rfl rfl hsame
    | refuse | leave => cases hclosed'
    | enter | resume =>
      rw [Progress.isBegun_loop] at hbegun'
      cases hbegun'
    | _ => cases hbegun'
  case replays => exact h.replays_own hrun honward

/-- Whatever turns are taken, the record is kept. -/
theorem run (h : Recorded job start [] start) (hrun : start.run job turns = some t) :
    Recorded job start turns t := by
  refine foldlM_induction (P := Recorded job start) h ?_ hrun
  intro turns t turn t' hturns hrecorded hstep
  cases turn with
  | own => exact hrecorded.own hturns hstep
  | other mv => exact hrecorded.other hturns hstep

end Recorded

/-! ## What others can rely on -/

/-- What there is to see while the layout yields. -/
structure Exposed (t : Thread) : Prop where
  yielding : ∃ left report, t.progress = .yielding left report
  published : t.system.lock.value.Published
  /-- A consumer that has applied all events since the creation of the graph has the graph as it is. -/
  shown : t.system.outgoing = [] ∧ ∃ r, t.system.replica.Follows t.system.channel.queued r ∧
    t.system.lock.value.nodes.ShownBy r.nodes ∧ t.system.lock.value.edges.ShownBy r.edges

/-- What came of a layout that has just returned a report, after the given turns. -/
structure Reported (job : Job) (start : Thread) (turns : List Turn) (t : Thread)
    (report : LayoutReport) : Prop where
  free : t.system.lock.state.task = none
  bounded : report.iterations ≤ job.iterations
  complete : report.cancelled = false → report.iterations = job.iterations
  stopped : report.cancelled = true ↔ CancelSeen job start turns
  paired : Progress.Closed t.log
  /-- By itself the layout would have done the same. -/
  replayed : ∃ data answers lock, Entered job start turns data ∧
    Layout.run scripted job.params job.iterations (scene t.system.lock.name data {} [] answers)
      = .ok report (scene t.system.lock.name t.system.lock.value lock t.log [])

/-- What came of a layout that has just been turned away because another task ran. -/
structure Refused (job : Job) (start : Thread) (turns : List Turn) (t : Thread) (other : String) :
    Prop where
  silent : t.log = []
  harmless : ¬ Interfered job start turns
  /-- By itself the layout would have been turned away in the same way. -/
  replayed : ∀ {ω : Type} (env : Surroundings ω) (w : World ω), w.graph.lock.task = some other →
    Layout.run env job.params job.iterations w = .error (.error (.busy w.graph.name (some other))) w

/-- What others can rely on, however they interleave with a layout. -/
structure Disciplined (job : Job) (start : Thread) (turns : List Turn) (t : Thread) : Prop where
  /-- While the task is registered, the graph is out of the layout's hands only when it is published. -/
  exposed : (t.system.lock.standing job.user).task.isSome = true →
    t.system.lock.owner ≠ some job.user → Exposed t
  /-- A layout that has not returned goes on unless it waits for others. -/
  proceeds : job.user < t.system.lock.agents.size → ¬ t.system.lock.Waits job.user →
    (∀ result, t.progress ≠ .returned result) → (t.own? job).isSome = true
  /-- Once the layout has noticed that it is to stop, it relaxes no more. -/
  stops : CancelSeen job start turns → t.progress.isClosed = true
  returns : ∀ t' result, t.own? job = some t' → t'.progress = .returned result →
    (∃ report, result = .ok report ∧ Reported job start (turns ++ [.own]) t' report) ∨
    ∃ other, result = .error (.error (.busy t'.system.lock.name (some other))) ∧
      Refused job start (turns ++ [.own]) t' other

/-- A layout without others around it is refused as well, if a task is registered. -/
theorem run_busy {ω : Type} (env : Surroundings ω) (params : LayoutParams) (iterations : Nat)
    {w : World ω} {other : String} (h : w.graph.lock.task = some other) :
    Layout.run env params iterations w = .error (.error (.busy w.graph.name (some other))) w := by
  have hstart : World.startTask env taskName w
      = .error (.error (.busy w.graph.name (some other))) w := by
    obtain ⟨⟨name, data, ⟨task, cancelled, waiters⟩, outbox⟩, around⟩ := w
    cases h
    rfl
  rw [Layout.run, duringTask_eq]
  show EStateM.bind (World.startTask env taskName) _ w = _
  rw [EStateM.bind, hstart]

namespace Recorded

/-- Others that get the graph while the layout is at work find everything published. -/
theorem exposed (h : Recorded job start turns t)
    (htask : (t.system.lock.standing job.user).task.isSome = true)
    (howner : t.system.lock.owner ≠ some job.user) : Exposed t := by
  obtain ⟨left, report, hp⟩ := h.steady.yielding_of_not_owner htask howner
  have hpublished := h.steady.published (by rw [hp]; rfl)
  have hout := h.steady.outgoing_eq_nil (.inr htask) hp (by simp)
  obtain ⟨waiting, r, hchannel, hfollows, hrep, -⟩ := h.steady.coherent.replica
  rw [hout, List.append_nil] at hfollows
  refine ⟨⟨left, report, hp⟩, hpublished, hout, r, ?_, hrep.nodes.shownBy hpublished.nodes,
    hrep.edges.shownBy hpublished.edges⟩
  rw [hchannel, Channel.queued_holding]
  exact hfollows

/-- A layout that was let in returns a report, and the report says what has happened. -/
theorem reported (h : Recorded job start turns t) (hrun : start.run job turns = some t)
    (hstep : t.own? job = some t') (hname : t'.system.lock.name = t.system.lock.name)
    {result : Except (Failure GraphError) LayoutReport} (hp : t.progress = .leaving result)
    (hp' : t'.progress = .returned result) (hsame : Same t t')
    (htask' : t'.system.lock.state.task = t.system.lock.state.task) :
    ∃ report, result = .ok report ∧ Reported job start (turns ++ [.own]) t' report := by
  have hadds := h.adds
  have hlogs := h.logs
  have hseen := (h.own hrun hstep).seen
  have hbegun : t.progress.isBegun = true := by rw [hp]; rfl
  have hout := h.steady.outgoing_eq_nil (h.steady.holds_of_isBegun hbegun) hp (by simp)
  obtain ⟨data, hentered, answers, lock, -, hreplay⟩ := h.replays hbegun
  rw [hp] at hadds hlogs
  obtain ⟨report, rfl, hbounded, hcomplete⟩ := hadds
  refine ⟨report, rfl, ?_, hbounded, hcomplete, ?_, ?_, data, answers, lock, ?_, ?_⟩
  · rw [htask']
    apply h.free
    rw [hp]
    trivial
  · rw [hseen, hp']
    rfl
  · rw [hsame.log]
    exact hlogs
  · exact (happened_concat hrun).2 (.inl hentered)
  · -- nothing is left to do but to give the result
    have hall := hreplay []
    rw [List.append_nil, hout, List.append_nil, hp] at hall
    rw [hname, hsame.value, hsame.log]
    exact hall

/-- A layout returns with a report, or it was refused. -/
theorem returns (h : Recorded job start turns t) (hrun : start.run job turns = some t)
    {result : Except (Failure GraphError) LayoutReport} (hstep : t.own? job = some t')
    (hp' : t'.progress = .returned result) :
    (∃ report, result = .ok report ∧ Reported job start (turns ++ [.own]) t' report) ∨
    ∃ other, result = .error (.error (.busy t'.system.lock.name (some other))) ∧
      Refused job start (turns ++ [.own]) t' other := by
  have honward := h.steady.onward hstep
  have hcourse := honward.course
  rw [hp'] at hcourse
  generalize hp : t.progress = p at hcourse
  generalize hq : Progress.returned result = q at hcourse
  cases hcourse with
  | leave hsame htask' =>
    cases hq
    exact .inl (h.reported hrun hstep honward.name hp hp' hsame htask')
  | @refuse other hsame =>
    cases hq
    have hlogs := h.logs
    rw [hp] at hlogs
    refine .inr ⟨other, by rw [honward.name], ?_, ?_, fun env w hw => run_busy env _ _ hw⟩
    · rw [hsame.log]
      exact hlogs
    · exact h.harmless_own hrun hstep (by rw [hp]; rfl) (by rw [hp]; rfl) hsame
  -- a step that ends in another part of the layout does not return
  | enter =>
    cases hiterations : job.iterations <;> rw [hiterations] at hq <;> cases hq
  | @resume left => cases left <;> cases hq
  | _ => cases hq

theorem disciplined (h : Recorded job start turns t) (hrun : start.run job turns = some t) :
    Disciplined job start turns t where
  exposed := h.exposed
  proceeds := h.steady.own_isSome
  stops hseen := Progress.isClosed_of_wasStopped (h.seen.1 hseen)
  returns _ _ := h.returns hrun

end Recorded

end Thread

/-- A layout of a new graph on which others have worked and go on to work, in whatever interleaving:
others get hold of the graph only when all its changes are published, the report is true, and in the end
the lock has no task and the news of it are one pair, unless the layout was turned away and did nothing. -/
theorem layout_exposes_published {config : GraphConfig} (hv : config.Valid) :
    ∃ g s₀, Graph.new config = .ok g ∧ System.start g = .ok s₀ ∧
      ∀ moves s, s₀.run moves = some s → ∀ job : Job, s.lock.phase job.user = .idle →
        ∀ turns t, Thread.run job { system := s } turns = some t →
          Thread.Disciplined job { system := s } turns t := by
  obtain ⟨g, s₀, hgraph, hstart, hcoherent⟩ := System.coherent_start hv
  refine ⟨g, s₀, hgraph, hstart, fun moves s hmoves job hidle turns t hrun => ?_⟩
  have hconsistent := System.consistent_run (System.consistent_start hgraph hstart) hmoves
  have hinitial := Thread.Recorded.initial (hcoherent.run hmoves) hconsistent hidle
  exact (hinitial.run hrun).disciplined hrun

/-- Two users join a new graph, and the second one adds a node and removes it again. -/
def preparation : List System.Move :=
  [.lock .join, .lock .join, .lock (.call 1 .write), .lock (.proceed 1), .lock (.proceed 1),
   .lock (.proceed 1), .edit 1 (.addNode default), .publish, .edit 1 (.removeNode 0),
   .lock (.release 1), .lock (.proceed 1)]

/-- The layout relaxes once, flushes and yields; the second user reads, and the consumer catches up. -/
def interlude : List Turn :=
  List.replicate 10 .own ++ [.other (.lock (.call 1 .read)), .other (.lock (.proceed 1)),
    .other (.lock (.proceed 1)), .other .receive, .other .receive, .other .receive]

/-- The second user has read, and asks the layout to stop, which is then about to return. -/
def interruption : List Turn :=
  [.other (.lock (.release 1)), .other (.lock (.proceed 1)), .other (.lock .cancel)] ++
    List.replicate 6 .own

/-- The report that was returned. -/
def Progress.report? : Progress → Option LayoutReport
  | returned (.ok report) => some report
  | _ => none

theorem Progress.eq_returned {p : Progress} {report : LayoutReport} (h : p.report? = some report) :
    p = .returned (.ok report) := by
  unfold report? at h
  split at h
  · cases h
    rfl
  · cases h

/-- The reader finds the graph published, and the layout reports that it was stopped after one of its
three relaxations. -/
theorem layout_exposes_published_interrupted : ∃ g s₀ s t₁ t₂ t₃,
    Graph.new { nodes := { blockSize := 2, maxModified := 1 } } = .ok g ∧
    System.start g = .ok s₀ ∧ s₀.run preparation = some s ∧
    s.lock.value.nodes.pendingChanges = 1 ∧
    Thread.run ⟨0, {}, 3⟩ { system := s } interlude = some t₁ ∧ t₁.system.lock.owner = some 1 ∧
    t₁.Exposed ∧
    Thread.run ⟨0, {}, 3⟩ { system := s } (interlude ++ interruption) = some t₂ ∧
    t₂.own? ⟨0, {}, 3⟩ = some t₃ ∧
    t₃.progress = .returned (.ok { iterations := 1, cancelled := true }) ∧
    Thread.Reported ⟨0, {}, 3⟩ { system := s } (interlude ++ interruption ++ [.own]) t₃
      { iterations := 1, cancelled := true } := by
  have hv : ({ nodes := { blockSize := 2, maxModified := 1 } } : GraphConfig).Valid :=
    ⟨by decide, by decide⟩
  obtain ⟨g, s₀, hgraph, hstart, hall⟩ := layout_exposes_published hv
  have hruns : (s₀.run preparation).any (fun s =>
      s.lock.phase 0 = .idle ∧ s.lock.value.nodes.pendingChanges = 1 ∧
      (Thread.run ⟨0, {}, 3⟩ { system := s } interlude).any (fun t =>
        t.system.lock.owner = some 1 ∧ (t.system.lock.standing 0).task.isSome = true) = true ∧
      (Thread.run ⟨0, {}, 3⟩ { system := s } (interlude ++ interruption)).any (fun t =>
        (t.own? ⟨0, {}, 3⟩).any fun t' =>
          t'.progress.report? = some { iterations := 1, cancelled := true }) = true) = true := by
    cases hgraph
    cases hstart
    decide +kernel
  obtain ⟨s, hprepared, hs⟩ := (Option.any_eq_true _ _).1 hruns
  obtain ⟨hidle, hpending, hread, hstopped⟩ := of_decide_eq_true hs
  obtain ⟨t₁, hinterlude, ht₁⟩ := (Option.any_eq_true _ _).1 hread
  obtain ⟨howner, htask⟩ := of_decide_eq_true ht₁
  obtain ⟨t₂, hinterruption, ht₂⟩ := (Option.any_eq_true _ _).1 hstopped
  obtain ⟨t₃, hlast, ht₃⟩ := (Option.any_eq_true _ _).1 ht₂
  have hp := Progress.eq_returned (of_decide_eq_true ht₃)
  have hexposed := (hall _ s hprepared ⟨0, {}, 3⟩ hidle _ t₁ hinterlude).exposed htask
    (by simp [howner])
  have hreturns := (hall _ s hprepared ⟨0, {}, 3⟩ hidle _ t₂ hinterruption).returns t₃ _ hlast hp
  obtain ⟨report, heq, hreported⟩ := hreturns.resolve_right (by simp)
  cases heq
  exact ⟨g, s₀, s, t₁, t₂, t₃, hgraph, hstart, hprepared, hpending, hinterlude, howner, hexposed,
    hinterruption, hlast, hp, hreported⟩

end Layout

end LiveGraph
