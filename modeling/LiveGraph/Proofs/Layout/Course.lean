import LiveGraph.Proofs.Layout.Thread
import LiveGraph.Proofs.Store.Publication

/-!
# The course of a layout

However the others interleave, a layout is where its progress says, nobody changes the graph under its
hands, and when it yields there is nothing left to publish. `Thread.Steady` is this invariant, and
`Thread.Course` lists what a step of the layout can then be; what a layout does on the whole is read off
this list.
-/

namespace LiveGraph

/-! ## What a flush leaves -/

/-- The events of a flush are about elements, never about the lock. -/
theorem Store.kind?_of_mem_flushEvents {ρ τ : Type} [Record ρ] (s : Store ρ τ) {e : Event}
    (he : e ∈ s.flushEvents) : e.kind? = some (Record.kind ρ) := by
  obtain ⟨b, -, hb⟩ := List.mem_flatMap.1 he
  unfold blockEvents at hb
  dsimp only at hb
  split at hb
  · rw [List.mem_singleton] at hb
    rw [hb]
    rfl
  · obtain ⟨o, -, rfl⟩ := List.mem_map.1 hb
    rfl

namespace GraphData

/-- All changes are published. -/
structure Published (d : GraphData) : Prop where
  nodes : d.nodes.pendingChanges = 0
  edges : d.edges.pendingChanges = 0

/-- Nothing waits to be published after a flush. -/
theorem Consistent.published_flushed {d : GraphData} (h : d.Consistent) : d.flushed.Published :=
  ⟨h.nodes.noted_flushed.pendingChanges_eq, h.edges.noted_flushed.pendingChanges_eq⟩

theorem Consistent.flushed {d : GraphData} (h : d.Consistent) : d.flushed.Consistent := by
  have hcall := Consistent.call (t := ⟨d, #[]⟩) h .flush
  rw [Call.edit, Edit.after_of_ok (h.flush_eq_flushed #[])] at hcall
  exact hcall

/-- A replica that keeps up goes on doing so. -/
theorem keptUp_resume {r₀ : GraphReplica} {t : Tracked GraphData} (h : KeptUp r₀ t)
    (calls : List Call) : KeptUp r₀ (resume t calls) := by
  induction calls generalizing t with
  | nil => exact h
  | cons c calls ih => exact ih (keptUp_call c r₀ t h)

end GraphData

/-! ## What others do -/

namespace System

/-- Every move keeps the graph consistent. -/
theorem consistent_step {s s' : System} {mv : Move} (h : s.lock.value.Consistent)
    (hstep : s.step? mv = some s') : s'.lock.value.Consistent := by
  cases mv with
  | lock mv =>
    rw [step?] at hstep
    split at hstep
    · cases hstep
    · next hguard =>
      obtain ⟨m, hm, rfl⟩ := Option.map_eq_some_iff.1 hstep
      -- moves of the lock that change the value are left to edits
      have hvalue : m.value = s.lock.value := by
        apply LockMachine.step_value hm
        rintro i f rfl
        exact hguard (.inr (.inl rfl))
      show m.value.Consistent
      rw [hvalue]
      exact h
  | edit i c =>
    rw [step?] at hstep
    split at hstep
    · cases hstep
    · obtain ⟨lock, hlock, rfl⟩ := Option.map_eq_some_iff.1 hstep
      obtain ⟨-, -, -, rfl⟩ := LockMachine.step_update hlock
      show (c.edit.perform s.lock.value).2.1.Consistent
      rw [Edit.perform_snd]
      exact GraphData.Consistent.call (t := ⟨s.lock.value, #[]⟩) h c
  | publish =>
    rw [step?] at hstep
    split at hstep
    · cases hstep
    · cases hstep
      exact h
  | receive =>
    rw [step?] at hstep
    split at hstep
    · cases hstep
    · cases hstep
      exact h

/-- Every graph that moves can lead to is consistent. -/
theorem consistent_run {s s' : System} {moves : List Move} (h : s.lock.value.Consistent)
    (hrun : s.run moves = some s') : s'.lock.value.Consistent := by
  induction moves generalizing s with
  | nil =>
    cases hrun
    exact h
  | cons mv moves ih =>
    rw [run, List.foldlM_cons] at hrun
    obtain ⟨s₁, hstep, hrest⟩ := Option.bind_eq_some_iff.1 hrun
    exact ih (consistent_step h hstep) hrest

/-- A system starts with a new graph, which is consistent. -/
theorem consistent_start {config : GraphConfig} {g : Graph} {s : System}
    (hgraph : Graph.new config = .ok g) (hstart : start g = .ok s) : s.lock.value.Consistent := by
  rw [start_eq] at hstart
  cases hstart
  rw [Graph.new] at hgraph
  split at hgraph
  · cases hgraph
  · split at hgraph
    · next data hdata =>
      cases hgraph
      exact GraphData.consistent_new hdata
    · cases hgraph

/-- What a move does to the lock: nothing, or a move of the lock. -/
theorem step_lock {s s' : System} {mv : Move} (hstep : s.step? mv = some s') :
    (s'.lock = s.lock ∧ mv ≠ .lock .cancel) ∨
      ∃ lmv, s.lock.step? lmv = some s'.lock ∧ (lmv = .cancel ↔ mv = .lock .cancel) := by
  cases mv with
  | lock mv =>
    rw [step?] at hstep
    split at hstep
    · cases hstep
    · obtain ⟨m, hm, rfl⟩ := Option.map_eq_some_iff.1 hstep
      exact .inr ⟨mv, hm, by simp⟩
  | edit i c =>
    rw [step?] at hstep
    split at hstep
    · cases hstep
    · obtain ⟨lock, hlock, rfl⟩ := Option.map_eq_some_iff.1 hstep
      exact .inr ⟨_, hlock, by simp⟩
  | publish =>
    rw [step?] at hstep
    split at hstep
    · cases hstep
    · cases hstep
      exact .inl ⟨rfl, by simp⟩
  | receive =>
    rw [step?] at hstep
    split at hstep
    · cases hstep
    · cases hstep
      exact .inl ⟨rfl, by simp⟩

end System

namespace Layout

namespace Thread

/-- A step of the others is a step of the system. -/
theorem system_other {job : Job} {t t' : Thread} {mv : System.Move}
    (h : t.step? job (.other mv) = some t') : t.system.step? mv = some t'.system := by
  rw [step?] at h
  split at h
  · obtain ⟨s', hs, rfl⟩ := Option.map_eq_some_iff.1 h
    exact hs
  · cases h

/-- What the moves of others leave alone. -/
structure Undisturbed (job : Job) (t t' : Thread) : Prop where
  progress : t'.progress = t.progress
  log : t'.log = t.log
  name : t'.system.lock.name = t.system.lock.name
  phase : t'.system.lock.phase job.user = t.system.lock.phase job.user ∨
    t'.system.lock.phase job.user = (t.system.lock.phase job.user).woken
  value : t.system.lock.Holds job.user → t'.system.lock.value = t.system.lock.value
  outgoing : t.system.lock.Holds job.user →
    t.system.outgoing = [] ∨ t.system.lock.owner = some job.user →
      t'.system.outgoing = t.system.outgoing

/-- What a user has of the lock does not depend on whether it was woken. -/
theorem Undisturbed.standing {job : Job} {t t' : Thread} (h : Undisturbed job t t') :
    t'.system.lock.standing job.user = t.system.lock.standing job.user := by
  unfold LockMachine.standing
  rcases h.phase with hsame | hwoken
  · rw [hsame]
  · rw [hwoken, Phase.standing_woken]

/-- While the layout has the graph to itself, the moves of others leave it alone. -/
theorem undisturbed {job : Job} {t t' : Thread} {mv : System.Move} (hc : t.system.Coherent)
    (h : t.step? job (.other mv) = some t') : Undisturbed job t t' := by
  rw [step?] at h
  split at h
  · next hforeign =>
    obtain ⟨s', hstep, rfl⟩ := Option.map_eq_some_iff.1 h
    cases mv with
    | lock mv =>
      rw [System.step?] at hstep
      split at hstep
      · cases hstep
      · next hguard =>
        obtain ⟨m, hm, rfl⟩ := Option.map_eq_some_iff.1 hstep
        have hother : mv.agent? ≠ some job.user := of_decide_eq_true hforeign
        have hvalue : m.value = t.system.lock.value := by
          apply LockMachine.step_value hm
          rintro i f rfl
          exact hguard (.inr (.inl rfl))
        exact ⟨rfl, rfl, LockMachine.step_name hm, (LockMachine.step_frame hm hother).1,
          fun _ => hvalue, fun _ _ => rfl⟩
    -- nobody else can edit while the layout holds the lock, so there is nothing to compare
    | edit i c =>
      rw [System.step?] at hstep
      split at hstep
      · cases hstep
      · obtain ⟨lock, hlock, rfl⟩ := Option.map_eq_some_iff.1 hstep
        have hother : i ≠ job.user := of_decide_eq_true hforeign
        have hnot : ¬ t.system.lock.Holds job.user :=
          fun hholds => hother (hc.sound.eq_of_update hholds hlock)
        obtain ⟨-, -, -, rfl⟩ := LockMachine.step_update hlock
        exact ⟨rfl, rfl, rfl, .inl rfl, fun hholds => absurd hholds hnot,
          fun hholds => absurd hholds hnot⟩
    | publish =>
      rw [System.step?] at hstep
      split at hstep
      · cases hstep
      · next e rest hout =>
        cases hstep
        have hother : t.system.lock.owner ≠ some job.user := of_decide_eq_true hforeign
        refine ⟨rfl, rfl, rfl, .inl rfl, fun _ => rfl, fun _ hkept => ?_⟩
        -- who publishes owns the graph, and that is not the layout
        rcases hkept with hnone | howner
        · rw [hnone] at hout
          cases hout
        · exact absurd howner hother
    | receive =>
      rw [System.step?] at hstep
      split at hstep
      · cases hstep
      · cases hstep
        exact ⟨rfl, rfl, rfl, .inl rfl, fun _ => rfl, fun _ _ => rfl⟩
  · cases h

end Thread

/-! ## The invariant -/

/-- The phases in which the user of a layout can be. -/
def Progress.Fits (resource : String) : Progress → Phase → Prop
  | ready, p | returned _, p => p = .idle
  | asking, p => p.Asks resource taskName
  | relaxing _ _, p | flushing _ _, p | publishing _ _, p | closing _, p =>
    p = .inside (.long taskName)
  | yielding _ _, p => p.Yields taskName
  | ending _, p => p.Ends taskName
  | leaving _, p => p = .leaving

/-- Being woken does not change which part of the layout a user is in. -/
theorem Progress.Fits.woken {resource : String} {progress : Progress} {p : Phase}
    (h : progress.Fits resource p) : progress.Fits resource p.woken := by
  cases progress with
  | asking =>
    have hasks : p.Asks resource taskName := h
    rw [hasks.woken_eq]
    exact h
  | yielding left report => exact Phase.Yields.woken h
  | ending result =>
    have hends : p.Ends taskName := h
    rw [hends.woken_eq]
    exact h
  | _ =>
    cases h
    rfl

/-- The layout has flushed and may not go on yet. -/
def Progress.isFlushed : Progress → Bool
  | publishing _ _ | yielding _ _ => true
  | _ => false

theorem Progress.isFlushed_loop (left : Nat) (report : LayoutReport) :
    (loop left report).isFlushed = false := by
  cases left <;> rfl

theorem Progress.fits_loop {resource : String} {p : Phase} (hp : p = .inside (.long taskName))
    {left : Nat} {report : LayoutReport} : (loop left report).Fits resource p := by
  cases left <;> exact hp

namespace Thread

/-- The layout is where its progress says, and has published what it should have. -/
structure Steady (job : Job) (t : Thread) : Prop where
  coherent : t.system.Coherent
  consistent : t.system.lock.value.Consistent
  fits : t.progress.Fits t.system.lock.name (t.system.lock.phase job.user)
  /-- While the layout has the graph to itself, nothing is under way but the changes of its records
  before it yields. -/
  outgoing : t.system.lock.Holds job.user → t.system.outgoing = [] ∨
    (∃ left report, t.progress = .publishing left report) ∧
      ∀ e ∈ t.system.outgoing, e.kind?.isSome = true
  published : t.progress.isFlushed = true → t.system.lock.value.Published

/-- Who owns the value holds the lock. -/
theorem holds_of_owns {m : LockMachine GraphData} {i : Nat} (hp : (m.phase i).owns = true) :
    m.Holds i := by
  left
  rw [LockMachine.standing, Phase.owns_standing]
  exact hp

theorem not_holds_of_idle {m : LockMachine GraphData} {i : Nat} (hp : m.phase i = .idle) :
    ¬ m.Holds i := by
  rw [LockMachine.Holds, LockMachine.standing, hp]
  simp [Phase.standing]

/-- Who yields holds the lock, although somebody else may own the value. -/
theorem holds_of_yields {m : LockMachine GraphData} {i : Nat} {task : String}
    (hp : (m.phase i).Yields task) : m.Holds i := by
  right
  rw [LockMachine.standing, hp.task_eq]
  rfl

namespace Steady

variable {job : Job} {t t' : Thread}

theorem fits_of (h : Steady job t) {progress : Progress} (hp : t.progress = progress) :
    progress.Fits t.system.lock.name (t.system.lock.phase job.user) := by
  rw [← hp]
  exact h.fits

/-- A layout that is inside is the owner of the graph. -/
theorem owner_of_owns (h : Steady job t) (hp : (t.system.lock.phase job.user).owns = true) :
    t.system.lock.owner = some job.user := by
  rw [h.coherent.sound.owner_iff, LockMachine.standing, Phase.owns_standing]
  exact hp

/-- From its flush to the end of its yield the layout has the graph to itself. -/
theorem holds_of_isFlushed (h : Steady job t) (hp : t.progress.isFlushed = true) :
    t.system.lock.Holds job.user := by
  have hfits := h.fits
  cases hprogress : t.progress with
  | publishing left report =>
    rw [hprogress] at hfits
    exact holds_of_owns (by rw [hfits]; rfl)
  | yielding left report =>
    rw [hprogress] at hfits
    exact holds_of_yields hfits
  | _ =>
    rw [hprogress] at hp
    cases hp

/-- While the layout has the graph to itself, nobody else publishes. -/
theorem outgoing_undisturbed (h : Steady job t) (hu : Undisturbed job t t')
    (hholds : t.system.lock.Holds job.user) : t'.system.outgoing = t.system.outgoing := by
  apply hu.outgoing hholds
  rcases h.outgoing hholds with hnone | ⟨⟨left, report, hp⟩, -⟩
  · exact .inl hnone
  · have hinside : t.system.lock.phase job.user = .inside (.long taskName) := h.fits_of hp
    exact .inr (h.owner_of_owns (by rw [hinside]; rfl))

/-- The moves of others keep a layout steady. -/
theorem other (h : Steady job t) {mv : System.Move} (hstep : t.step? job (.other mv) = some t') :
    Steady job t' := by
  have hu := undisturbed h.coherent hstep
  have hholds : t'.system.lock.Holds job.user → t.system.lock.Holds job.user := by
    unfold LockMachine.Holds
    rw [hu.standing]
    exact id
  constructor
  case coherent => exact h.coherent.step (system_other hstep)
  case consistent => exact System.consistent_step h.consistent (system_other hstep)
  case fits =>
    rw [hu.progress, hu.name]
    rcases hu.phase with hsame | hwoken
    · rw [hsame]
      exact h.fits
    · rw [hwoken]
      exact h.fits.woken
  case outgoing =>
    intro hheld
    rw [hu.progress, h.outgoing_undisturbed hu (hholds hheld)]
    exact h.outgoing (hholds hheld)
  case published =>
    intro hp
    rw [hu.progress] at hp
    rw [hu.value (h.holds_of_isFlushed hp)]
    exact h.published hp

end Steady

/-! ## The steps of a layout -/

/-- A step of the layout that concerns the lock only. -/
structure Same (t t' : Thread) : Prop where
  value : t'.system.lock.value = t.system.lock.value
  outgoing : t'.system.outgoing = t.system.outgoing
  channel : t'.system.channel = t.system.channel
  log : t'.log = t.log

/-- A step of the layout that tells of its task. -/
structure Tells (t : Thread) (x : Option String) (t' : Thread) : Prop where
  value : t'.system.lock.value = t.system.lock.value
  outgoing : t'.system.outgoing = t.system.outgoing
  log : t'.log = t.log ++ [.task x]

/-- What a step of the layout can be, by its progress before and after. -/
inductive Course (job : Job) (t t' : Thread) : Progress → Progress → Prop
  /-- The layout publishes a change. -/
  | publish {left : Nat} {report : LayoutReport} {e : Event}
      (hout : t.system.outgoing = e :: t'.system.outgoing) (hlock : t'.system.lock = t.system.lock)
      (hlog : t'.log = t.log ++ [e]) (hkind : e.kind?.isSome = true) :
      Course job t t' (.publishing left report) (.publishing left report)
  /-- It asks for the section of its task. -/
  | call (hsame : Same t t') : Course job t t' .ready .asking
  /-- It goes on to ask. -/
  | ask (hsame : Same t t') (hphase : t.system.lock.phase job.user ≠ .starting taskName) :
      Course job t t' .asking .asking
  /-- It is turned away. -/
  | refuse {other : String} (hsame : Same t t') :
      Course job t t' .asking
        (.returned (.error (.error (.busy t.system.lock.name (some other)))))
  /-- It is let in, and tells of its task. -/
  | enter (htells : Tells t (some taskName) t')
      (hphase : t.system.lock.phase job.user = .starting taskName) :
      Course job t t' .asking (.loop job.iterations {})
  | relax {left : Nat} {report : LayoutReport} {displacement : Single}
      (hrelax : relax job.params ⟨t.system.lock.value, #[]⟩
        = .ok displacement ⟨t'.system.lock.value, #[]⟩)
      (hout : t.system.outgoing = []) (hout' : t'.system.outgoing = []) (hlog : t'.log = t.log) :
      Course job t t' (.relaxing left report)
        (.flushing left { report with iterations := report.iterations + 1, displacement })
  | flush {left : Nat} {report : LayoutReport}
      (hvalue : t'.system.lock.value = t.system.lock.value.flushed)
      (hout : t.system.outgoing = [])
      (hout' : t'.system.outgoing
        = t.system.lock.value.nodes.flushEvents ++ t.system.lock.value.edges.flushEvents)
      (hlog : t'.log = t.log) : Course job t t' (.flushing left report) (.publishing left report)
  /-- It begins to yield. -/
  | yield {left : Nat} {report : LayoutReport} (hsame : Same t t') (hout : t.system.outgoing = []) :
      Course job t t' (.publishing left report) (.yielding left report)
  /-- It goes on to yield. -/
  | rest {left : Nat} {report : LayoutReport} (hsame : Same t t')
      (hphase : t.system.lock.phase job.user ≠ .judging taskName) :
      Course job t t' (.yielding left report) (.yielding left report)
  /-- It finds that it was asked to stop. -/
  | stop {left : Nat} {report : LayoutReport} (hsame : Same t t')
      (hphase : t.system.lock.phase job.user = .judging taskName)
      (hcancelled : t.system.lock.state.cancelled = true) :
      Course job t t' (.yielding left report) (.closing (.ok { report with cancelled := true }))
  /-- It finds that it was not asked to stop. -/
  | resume {left : Nat} {report : LayoutReport} (hsame : Same t t')
      (hphase : t.system.lock.phase job.user = .judging taskName)
      (hcancelled : t.system.lock.state.cancelled = false) :
      Course job t t' (.yielding left report) (.loop left report)
  /-- It begins to end its task. -/
  | close {result : Except (Failure GraphError) LayoutReport} (hsame : Same t t')
      (hphase' : t'.system.lock.phase job.user = .ending taskName) :
      Course job t t' (.closing result) (.ending result)
  /-- It takes its task off the lock. -/
  | clear {result : Except (Failure GraphError) LayoutReport} (hsame : Same t t')
      (htask' : t'.system.lock.state.task = none) :
      Course job t t' (.ending result) (.ending result)
  /-- It tells that its task has ended. -/
  | tell {result : Except (Failure GraphError) LayoutReport} (htells : Tells t none t')
      (hphase : t.system.lock.phase job.user = .telling taskName)
      (htask' : t'.system.lock.state.task = t.system.lock.state.task) :
      Course job t t' (.ending result) (.leaving result)
  /-- It returns. -/
  | leave {result : Except (Failure GraphError) LayoutReport} (hsame : Same t t')
      (htask' : t'.system.lock.state.task = t.system.lock.state.task) :
      Course job t t' (.leaving result) (.returned result)

/-- The layout and its user have gone on together. -/
structure Onward (job : Job) (t t' : Thread) : Prop where
  course : Course job t t' t.progress t'.progress
  coherent : t'.system.Coherent
  consistent : t'.system.lock.value.Consistent
  fits : t'.progress.Fits t'.system.lock.name (t'.system.lock.phase job.user)
  /-- The lock has made a move of the user at most. -/
  lock : t'.system.lock = t.system.lock ∨ ∃ mv, mv.agent? = some job.user ∧
    t.system.lock.step? mv = some t'.system.lock

theorem Onward.name {job : Job} {t t' : Thread} (h : Onward job t t') :
    t'.system.lock.name = t.system.lock.name := by
  rcases h.lock with hsame | ⟨mv, -, hstep⟩
  · rw [hsame]
  · exact LockMachine.step_name hstep

namespace Steady

variable {job : Job} {t t' : Thread}

/-- A step of the layout that is a move of the lock. -/
theorem onward_lock (h : Steady job t) {progress : Progress} (hp : t.progress = progress)
    {mv : LockMove GraphData} {m : LockMachine GraphData}
    (hmv : progress.move? job.user = some mv)
    (hfree : t.system.lock.owner = some job.user → t.system.outgoing = [])
    (hstep : t.system.lock.step? mv = some m) {next : Progress}
    (hcourse : m.value = t.system.lock.value →
      Course job t (t.advance (t.system.relock m) next) progress next)
    (hfits : next.Fits m.name (m.phase job.user)) :
    Onward job t (t.advance (t.system.relock m) next) := by
  have hkind := Progress.of_move? hmv
  have hvalue : m.value = t.system.lock.value := by
    apply LockMachine.step_value hstep
    rintro i f rfl
    cases hkind.2.1
  have hcoherent : (t.system.relock m).Coherent := by
    refine h.coherent.lock hkind.1 hkind.2.1 ?_ hstep
    rw [hkind.2.2]
    by_cases howner : t.system.lock.owner = some job.user
    · exact .inl (hfree howner)
    · exact .inr (Ne.symm howner)
  have hconsistent : m.value.Consistent := by
    rw [hvalue]
    exact h.consistent
  subst hp
  exact ⟨hcourse hvalue, hcoherent, hconsistent, hfits, .inr ⟨mv, hkind.2.2, hstep⟩⟩

theorem same_of_told (t : Thread) {m : LockMachine GraphData} (hvalue : m.value = t.system.lock.value)
    (htold : m.told = t.system.lock.told) (progress : Progress) :
    Same t (t.advance (t.system.relock m) progress) := by
  rw [System.relock_same htold]
  exact ⟨hvalue, rfl, rfl, log_advance_same rfl progress⟩

theorem tells_of_told (h : Steady job t) {m : LockMachine GraphData} {x : Option String}
    (hvalue : m.value = t.system.lock.value) (htold : m.told = t.system.lock.told.push x)
    (progress : Progress) : Tells t x (t.advance (t.system.relock m) progress) := by
  rw [System.relock_push htold]
  exact ⟨hvalue, rfl, log_advance_emit h.coherent rfl progress⟩

/-- Events under way are published first, and these are changes of records. -/
theorem onward_publish (h : Steady job t) (howner : t.system.lock.owner = some job.user)
    (hout : t.system.outgoing ≠ []) (hstep : t.own? job = some t') : Onward job t t' := by
  -- who owns the graph has events under way only before it yields
  have hholds : t.system.lock.Holds job.user := .inl ((h.coherent.sound.owner_iff _).1 howner)
  obtain ⟨⟨left, report, hp⟩, hkinds⟩ := (h.outgoing hholds).resolve_left hout
  rw [own?, if_pos ⟨howner, hout⟩] at hstep
  obtain ⟨system, hsystem, rfl⟩ := Option.map_eq_some_iff.1 hstep
  rw [System.step?] at hsystem
  split at hsystem
  · cases hsystem
  · next e rest hout' =>
    cases hsystem
    refine ⟨?_, h.coherent.publish hout', h.consistent, h.fits, .inl rfl⟩
    rw [hp]
    refine .publish hout' rfl (log_advance_emit h.coherent rfl _) (hkinds e ?_)
    rw [hout']
    exact List.mem_cons_self

/-- At first the layout asks for the lock. -/
theorem onward_ready (h : Steady job t) (hp : t.progress = .ready)
    (hfree : t.system.lock.owner = some job.user → t.system.outgoing = [])
    (hstep : t.own? job = some t') : Onward job t t' := by
  obtain ⟨m, hm, rfl⟩ := own?_of_move hp rfl hfree hstep
  have hcalled : m = t.system.lock.move job.user (.checking (.long taskName)) ∧
      job.user < t.system.lock.agents.size := by
    rw [LockMachine.step?] at hm
    split at hm
    · next a hget =>
      cases hm
      exact ⟨rfl, (Array.getElem?_eq_some_iff.1 hget).1⟩
    · cases hm
  obtain ⟨rfl, hlt⟩ := hcalled
  refine h.onward_lock hp rfl hfree hm (fun hvalue => .call (same_of_told t hvalue rfl _)) ?_
  rw [LockMachine.phase_move _ _ _ hlt, if_pos rfl]
  exact .checking

theorem next_of_asks {resource : String} {p : Phase} (hp : p.Asks resource taskName)
    (iterations : Nat) (answer : Answer) : Progress.asking.next iterations p answer = .asking := by
  cases hp <;> rfl

/-- A layout that asks goes on asking, enters with its first round, or is refused. -/
theorem onward_asking (h : Steady job t) (hp : t.progress = .asking)
    (hfree : t.system.lock.owner = some job.user → t.system.outgoing = [])
    (hstep : t.own? job = some t') : Onward job t t' := by
  have hasks : (t.system.lock.phase job.user).Asks t.system.lock.name taskName := h.fits_of hp
  obtain ⟨m, hm, rfl⟩ := own?_of_move hp rfl hfree hstep
  have hname : m.name = t.system.lock.name := LockMachine.step_name hm
  -- whether it waits, is let in or is turned away is the decision of the lock
  rcases LockMachine.asks_proceed hasks hm with
    ⟨hnot, hasks', htold⟩ | ⟨hstarting, hinside, htold⟩ | ⟨other, hidle, hrefused, htold⟩
  · rw [next_of_asks hasks']
    refine h.onward_lock hp rfl hfree hm
      (fun hvalue => .ask (same_of_told t hvalue htold _) hnot) ?_
    rw [hname]
    exact hasks'
  · have hnext : Progress.asking.next job.iterations (m.phase job.user) (m.answer job.user)
        = .loop job.iterations {} := by
      rw [hinside]
      rfl
    rw [hnext]
    exact h.onward_lock hp rfl hfree hm
      (fun hvalue => .enter (h.tells_of_told hvalue htold _) hstarting)
      (Progress.fits_loop hinside)
  · rw [hidle, hrefused]
    exact h.onward_lock hp rfl hfree hm
      (fun hvalue => .refuse (same_of_told t hvalue htold _)) hidle

/-- A layout that is inside moves the nodes once. -/
theorem onward_relaxing (h : Steady job t) {left : Nat} {report : LayoutReport}
    (hp : t.progress = .relaxing left report)
    (hfree : t.system.lock.owner = some job.user → t.system.outgoing = [])
    (hstep : t.own? job = some t') : Onward job t t' := by
  have hinside : t.system.lock.phase job.user = .inside (.long taskName) := h.fits_of hp
  rw [own?, if_neg fun hbusy => hbusy.2 (hfree hbusy.1), hp] at hstep
  obtain ⟨⟨outcome, system⟩, hperform, rfl⟩ := Option.map_eq_some_iff.1 hstep
  obtain ⟨total, d', hrelax, hresume, hplaced⟩ := placed_relax h.consistent job.params #[]
  obtain ⟨hout, rfl, hlock, rfl⟩ := System.perform?_of_ok hrelax hperform
  have hcoherent := h.coherent.perform hout hlock fun r hrep => by
    have hkept := GraphData.keptUp_resume (t := ⟨t.system.lock.value, #[]⟩) ⟨r, .nil r, hrep, rfl⟩
      (moves job.params t.system.lock.value)
    rw [hresume] at hkept
    exact hkept
  refine ⟨?_, hcoherent, hplaced.consistent h.consistent, hinside, .inr ⟨_, rfl, hlock⟩⟩
  rw [hp]
  exact .relax hrelax hout rfl (log_advance_same rfl (.relaxed left report (.ok total)))

/-- Each round ends with a flush. -/
theorem onward_flushing (h : Steady job t) {left : Nat} {report : LayoutReport}
    (hp : t.progress = .flushing left report)
    (hfree : t.system.lock.owner = some job.user → t.system.outgoing = [])
    (hstep : t.own? job = some t') : Onward job t t' := by
  have hinside : t.system.lock.phase job.user = .inside (.long taskName) := h.fits_of hp
  rw [own?, if_neg fun hbusy => hbusy.2 (hfree hbusy.1), hp] at hstep
  obtain ⟨⟨outcome, system⟩, hperform, rfl⟩ := Option.map_eq_some_iff.1 hstep
  have hflush := h.consistent.flush_eq_flushed #[]
  rw [Array.empty_append] at hflush
  obtain ⟨hout, rfl, hlock, rfl⟩ := System.perform?_of_ok hflush hperform
  have hcoherent := h.coherent.perform hout hlock fun r hrep => by
    have hkept := GraphData.keptUp_flush r ⟨t.system.lock.value, #[]⟩ ⟨r, .nil r, hrep, rfl⟩
    rw [Edit.after_of_ok hflush] at hkept
    exact hkept
  refine ⟨?_, hcoherent, h.consistent.flushed, hinside, .inr ⟨_, rfl, hlock⟩⟩
  rw [hp]
  exact .flush rfl hout rfl (log_advance_same rfl (.publishing left report))

/-- When all events of the round are published, the layout yields. -/
theorem onward_publishing (h : Steady job t) {left : Nat} {report : LayoutReport}
    (hp : t.progress = .publishing left report)
    (hfree : t.system.lock.owner = some job.user → t.system.outgoing = [])
    (hstep : t.own? job = some t') : Onward job t t' := by
  have hinside : t.system.lock.phase job.user = .inside (.long taskName) := h.fits_of hp
  have hlt := LockMachine.lt_size_of_phase hinside (by simp)
  have hout := hfree (h.owner_of_owns (by rw [hinside]; rfl))
  obtain ⟨m, hm, rfl⟩ := own?_of_move hp rfl hfree hstep
  have hyield : m = t.system.lock.move job.user (.yielding taskName) := by
    rw [LockMachine.step?, hinside] at hm
    exact (Option.some.inj hm).symm
  subst hyield
  refine h.onward_lock hp rfl hfree hm
    (fun hvalue => .yield (same_of_told t hvalue rfl _) hout) ?_
  rw [LockMachine.phase_move _ _ _ hlt, if_pos rfl]
  exact .inl rfl

/-- A layout that yields goes on yielding, stops because it was cancelled, or starts the next round. -/
theorem onward_yielding (h : Steady job t) {left : Nat} {report : LayoutReport}
    (hp : t.progress = .yielding left report)
    (hfree : t.system.lock.owner = some job.user → t.system.outgoing = [])
    (hstep : t.own? job = some t') : Onward job t t' := by
  have hyields : (t.system.lock.phase job.user).Yields taskName := h.fits_of hp
  obtain ⟨m, hm, rfl⟩ := own?_of_move hp rfl hfree hstep
  rcases LockMachine.yields_proceed hyields hm with ⟨hnot, hyields', htold⟩ | ⟨hjudging, rfl⟩
  · have hnext : (Progress.yielding left report).next job.iterations (m.phase job.user)
        (m.answer job.user) = .yielding left report := by
      rcases hyields' with hp' | hp' | hp' | hp' | hp' <;> rw [hp'] <;> rfl
    rw [hnext]
    exact h.onward_lock hp rfl hfree hm
      (fun hvalue => .rest (same_of_told t hvalue htold _) hnot) hyields'
  -- the value is back, and the answer says whether the layout was cancelled meanwhile
  · have hlt := LockMachine.lt_size_of_phase hjudging (by simp)
    have hphase := LockMachine.phase_move t.system.lock (.inside (.long taskName))
      (.yielded !t.system.lock.state.cancelled) hlt job.user
    rw [if_pos rfl] at hphase
    have hanswer : (t.system.lock.move job.user (.inside (.long taskName))
        (.yielded !t.system.lock.state.cancelled)).answer job.user
          = .yielded !t.system.lock.state.cancelled := by
      rw [LockMachine.answer, LockMachine.getElem?_move _ _ _ hlt, if_pos rfl]
    rw [hphase, hanswer]
    cases hcancelled : t.system.lock.state.cancelled with
    | true =>
      rw [hcancelled] at hm hphase
      exact h.onward_lock hp rfl hfree hm
        (fun hvalue => .stop (same_of_told t hvalue rfl _) hjudging hcancelled) hphase
    | false =>
      rw [hcancelled] at hm hphase
      exact h.onward_lock hp rfl hfree hm
        (fun hvalue => .resume (same_of_told t hvalue rfl _) hjudging hcancelled)
        (Progress.fits_loop hphase)

/-- A layout that has come to its end gives up its task. -/
theorem onward_closing (h : Steady job t) {result : Except (Failure GraphError) LayoutReport}
    (hp : t.progress = .closing result)
    (hfree : t.system.lock.owner = some job.user → t.system.outgoing = [])
    (hstep : t.own? job = some t') : Onward job t t' := by
  have hinside : t.system.lock.phase job.user = .inside (.long taskName) := h.fits_of hp
  have hlt := LockMachine.lt_size_of_phase hinside (by simp)
  have hphase := LockMachine.phase_move t.system.lock (.ending taskName) .none hlt job.user
  rw [if_pos rfl] at hphase
  obtain ⟨m, hm, rfl⟩ := own?_of_move hp rfl hfree hstep
  have hrelease : m = t.system.lock.move job.user (.ending taskName) := by
    rw [LockMachine.step?, hinside] at hm
    exact (Option.some.inj hm).symm
  subst hrelease
  refine h.onward_lock hp rfl hfree hm
    (fun hvalue => .close (same_of_told t hvalue rfl _) hphase) ?_
  rw [hphase]
  exact .ending

/-- The task is cleared first, and then the observers are told. -/
theorem onward_ending (h : Steady job t) {result : Except (Failure GraphError) LayoutReport}
    (hp : t.progress = .ending result)
    (hfree : t.system.lock.owner = some job.user → t.system.outgoing = [])
    (hstep : t.own? job = some t') : Onward job t t' := by
  have hends : (t.system.lock.phase job.user).Ends taskName := h.fits_of hp
  obtain ⟨m, hm, rfl⟩ := own?_of_move hp rfl hfree hstep
  -- two steps of the lock: the registration goes, and then the news of it
  rcases LockMachine.ends_proceed hends hm with
    ⟨-, hphase', htask, htold⟩ | ⟨hphase, hphase', hstate, htold⟩
  · have hfits : (m.phase job.user).Ends taskName := by
      rw [hphase']
      exact .telling
    have hnext : (Progress.ending result).next job.iterations (m.phase job.user)
        (m.answer job.user) = .ending result := by
      rw [hphase']
      rfl
    rw [hnext]
    exact h.onward_lock hp rfl hfree hm
      (fun hvalue => .clear (same_of_told t hvalue htold _) htask) hfits
  · have hnext : (Progress.ending result).next job.iterations (m.phase job.user)
        (m.answer job.user) = .leaving result := by
      rw [hphase']
      rfl
    rw [hnext]
    exact h.onward_lock hp rfl hfree hm (fun hvalue =>
      .tell (h.tells_of_told hvalue htold _) hphase (congrArg _ hstate)) hphase'

/-- At last the layout returns with its result. -/
theorem onward_leaving (h : Steady job t) {result : Except (Failure GraphError) LayoutReport}
    (hp : t.progress = .leaving result)
    (hfree : t.system.lock.owner = some job.user → t.system.outgoing = [])
    (hstep : t.own? job = some t') : Onward job t t' := by
  obtain ⟨m, hm, rfl⟩ := own?_of_move hp rfl hfree hstep
  obtain ⟨hphase', hstate, htold⟩ := LockMachine.leaving_proceed (h.fits_of hp) hm
  have hnext : (Progress.leaving result).next job.iterations (m.phase job.user)
      (m.answer job.user) = .returned result := by
    rw [hphase']
    rfl
  rw [hnext]
  exact h.onward_lock hp rfl hfree hm
    (fun hvalue => .leave (same_of_told t hvalue htold _) (congrArg _ hstate)) hphase'

/-- What a step of a steady layout is. -/
theorem onward (h : Steady job t) (hstep : t.own? job = some t') : Onward job t t' := by
  -- events that are under way come first, whatever the layout is at
  by_cases hbusy : t.system.lock.owner = some job.user ∧ t.system.outgoing ≠ []
  · exact h.onward_publish hbusy.1 hbusy.2 hstep
  · have hfree : t.system.lock.owner = some job.user → t.system.outgoing = [] :=
      fun howner => Decidable.byContradiction fun hout => hbusy ⟨howner, hout⟩
    cases hp : t.progress with
    | ready => exact h.onward_ready hp hfree hstep
    | asking => exact h.onward_asking hp hfree hstep
    | relaxing left report => exact h.onward_relaxing hp hfree hstep
    | flushing left report => exact h.onward_flushing hp hfree hstep
    | publishing left report => exact h.onward_publishing hp hfree hstep
    | yielding left report => exact h.onward_yielding hp hfree hstep
    | closing result => exact h.onward_closing hp hfree hstep
    | ending result => exact h.onward_ending hp hfree hstep
    | leaving result => exact h.onward_leaving hp hfree hstep
    | returned result =>
      rw [own?, if_neg hbusy, hp] at hstep
      cases hstep

/-- A layout that has the graph to itself has published everything, unless it is about to yield. -/
theorem outgoing_eq_nil (h : Steady job t) (hholds : t.system.lock.Holds job.user)
    {progress : Progress} (hp : t.progress = progress)
    (hne : ∀ left report, progress ≠ .publishing left report) : t.system.outgoing = [] := by
  refine (h.outgoing hholds).resolve_right ?_
  rintro ⟨⟨left, report, hpublishing⟩, -⟩
  exact hne left report (hp.symm.trans hpublishing)

/-- Who comes to own the graph finds everything published. -/
theorem outgoing_of_asking (h : Steady job t) (honward : Onward job t t')
    (hp : t.progress = .ready ∨ t.progress = .asking) (hp' : t'.progress = .asking)
    (hholds' : t'.system.lock.Holds job.user) : t.system.outgoing = [] := by
  by_cases hholds : t.system.lock.Holds job.user
  · rcases hp with hp | hp
    · exact h.outgoing_eq_nil hholds hp (by simp)
    · exact h.outgoing_eq_nil hholds hp (by simp)
  -- the step has just made it the owner, and with events under way somebody else would own the graph
  · have hfits' := honward.fits
    rw [hp'] at hfits'
    have howns' := LockMachine.owns_of_holds hfits' hholds'
    have howns : (t.system.lock.standing job.user).owns = false := by
      rw [← Bool.not_eq_true]
      exact fun howns => hholds (.inl howns)
    have howner : t.system.lock.owner = none := by
      rcases honward.lock with hsame | ⟨mv, hagent, hstep⟩
      · rw [hsame, howns] at howns'
        cases howns'
      · rcases LockMachine.step_cases hstep with ⟨i, f, s, -, -, -, hlock⟩ | ⟨hnone, -⟩ |
          ⟨i, told, hi, hstepped⟩
        · have hsame : t'.system.lock.standing job.user = t.system.lock.standing job.user := by
            rw [hlock]
            rfl
          rw [hsame, howns] at howns'
          cases howns'
        · rw [hnone] at hagent
          cases hagent
        · rw [hagent] at hi
          cases hi
          exact hstepped.turn.owner_eq_none howns howns'
    exact Decidable.byContradiction fun hout => h.coherent.busy hout howner

/-- What a step leaves under way. -/
theorem outgoing_own (h : Steady job t) (honward : Onward job t t')
    (hholds' : t'.system.lock.Holds job.user) : t'.system.outgoing = [] ∨
      (∃ left report, t'.progress = .publishing left report) ∧
        ∀ e ∈ t'.system.outgoing, e.kind?.isSome = true := by
  have hcourse := honward.course
  have hfits' := honward.fits
  generalize hp : t.progress = p at hcourse
  generalize hp' : t'.progress = p' at hcourse hfits'
  -- only a flush puts events under way, and they are all published before the layout yields
  cases hcourse with
  | @publish left report e hout hlock _ _ =>
    rw [hlock] at hholds'
    obtain ⟨-, hkinds⟩ := (h.outgoing hholds').resolve_left (by rw [hout]; simp)
    refine .inr ⟨⟨left, report, rfl⟩, fun e' he' => hkinds e' ?_⟩
    rw [hout]
    exact List.mem_cons_of_mem e he'
  | call hsame =>
    rw [hsame.outgoing]
    exact .inl (h.outgoing_of_asking honward (.inl hp) hp' hholds')
  | ask hsame _ =>
    rw [hsame.outgoing]
    exact .inl (h.outgoing_of_asking honward (.inr hp) hp' hholds')
  | refuse _ => exact absurd hholds' (not_holds_of_idle hfits')
  | enter htells hphase =>
    rw [htells.outgoing]
    exact .inl (h.outgoing_eq_nil (holds_of_owns (by rw [hphase]; rfl)) hp (by simp))
  | relax _ _ hout' _ => exact .inl hout'
  | @flush left report _ _ hout' _ =>
    refine .inr ⟨⟨left, report, rfl⟩, fun e he => ?_⟩
    rw [hout', List.mem_append] at he
    rcases he with he | he
    · rw [Store.kind?_of_mem_flushEvents _ he]
      rfl
    · rw [Store.kind?_of_mem_flushEvents _ he]
      rfl
  | yield hsame hout =>
    rw [hsame.outgoing]
    exact .inl hout
  | rest hsame _ | stop hsame _ _ | resume hsame _ _ =>
    rw [hsame.outgoing]
    exact .inl (h.outgoing_eq_nil (holds_of_yields (h.fits_of hp)) hp (by simp))
  | close hsame _ =>
    have hinside : t.system.lock.phase job.user = .inside (.long taskName) := h.fits_of hp
    rw [hsame.outgoing]
    exact .inl (h.outgoing_eq_nil (holds_of_owns (by rw [hinside]; rfl)) hp (by simp))
  | clear hsame _ =>
    have hends : (t.system.lock.phase job.user).Ends taskName := h.fits_of hp
    rw [hsame.outgoing]
    exact .inl (h.outgoing_eq_nil (holds_of_owns hends.owns) hp (by simp))
  | tell htells hphase _ =>
    rw [htells.outgoing]
    exact .inl (h.outgoing_eq_nil (holds_of_owns (by rw [hphase]; rfl)) hp (by simp))
  | leave _ _ => exact absurd hholds' (not_holds_of_idle hfits')

/-- After a flush all changes are published, and the layout makes no others before it goes on. -/
theorem published_own (h : Steady job t) (honward : Onward job t t')
    (hflushed : t'.progress.isFlushed = true) : t'.system.lock.value.Published := by
  have hcourse := honward.course
  generalize hp : t.progress = p at hcourse
  generalize t'.progress = p' at hcourse hflushed
  cases hcourse with
  | publish _ hlock _ _ =>
    rw [hlock]
    exact h.published (by rw [hp]; rfl)
  | flush hvalue _ _ _ =>
    rw [hvalue]
    exact h.consistent.published_flushed
  | yield hsame _ | rest hsame _ =>
    rw [hsame.value]
    exact h.published (by rw [hp]; rfl)
  -- a new round starts before its flush
  | enter | resume =>
    rw [Progress.isFlushed_loop] at hflushed
    cases hflushed
  | _ => cases hflushed

/-- A layout keeps steady by its own steps. -/
theorem own (h : Steady job t) (hstep : t.own? job = some t') : Steady job t' :=
  have honward := h.onward hstep
  ⟨honward.coherent, honward.consistent, honward.fits, h.outgoing_own honward,
    h.published_own honward⟩

/-- The next move of the lock can be made unless the user waits for others. -/
theorem move_isSome (h : Steady job t) (hjoined : job.user < t.system.lock.agents.size)
    (hwaits : ¬ t.system.lock.Waits job.user) {progress : Progress} (hp : t.progress = progress)
    {mv : LockMove GraphData} (hmv : progress.move? job.user = some mv) :
    (t.system.lock.step? mv).isSome = true := by
  have hfits := h.fits_of hp
  -- one case for each part of the layout that moves the lock
  cases progress with
  | ready =>
    cases hmv
    have hidle : t.system.lock.phase job.user = .idle := hfits
    have hget := Array.getElem?_eq_getElem hjoined
    generalize t.system.lock.agents[job.user] = a at hget
    obtain ⟨phase, answer⟩ := a
    rw [LockMachine.phase, hget] at hidle
    cases hidle
    rw [LockMachine.step?, hget]
    rfl
  | asking =>
    cases hmv
    have hasks : (t.system.lock.phase job.user).Asks t.system.lock.name taskName := hfits
    exact LockMachine.proceed_isSome hasks.ne_idle hasks.ne_inside hwaits
  | yielding left report =>
    cases hmv
    have hyields : (t.system.lock.phase job.user).Yields taskName := hfits
    exact LockMachine.proceed_isSome hyields.ne_idle hyields.ne_inside hwaits
  | ending result =>
    cases hmv
    have hends : (t.system.lock.phase job.user).Ends taskName := hfits
    exact LockMachine.proceed_isSome hends.ne_idle hends.ne_inside hwaits
  | leaving result =>
    cases hmv
    have hleaving : t.system.lock.phase job.user = .leaving := hfits
    exact LockMachine.proceed_isSome (by simp [hleaving]) (by simp [hleaving]) hwaits
  | publishing | closing =>
    cases hmv
    have hinside : t.system.lock.phase job.user = .inside (.long taskName) := hfits
    rw [LockMachine.step?, hinside]
    rfl
  | relaxing | flushing | returned => cases hmv

/-- A layout that has not returned goes on unless it waits for others. -/
theorem own_isSome (h : Steady job t) (hjoined : job.user < t.system.lock.agents.size)
    (hwaits : ¬ t.system.lock.Waits job.user) (hreturned : ∀ result, t.progress ≠ .returned result) :
    (t.own? job).isSome = true := by
  by_cases hbusy : t.system.lock.owner = some job.user ∧ t.system.outgoing ≠ []
  · rw [own?, if_pos hbusy, Option.isSome_map, System.step?]
    cases hout : t.system.outgoing with
    | nil => exact absurd hout hbusy.2
    | cons e rest => rfl
  · have hfree : t.system.lock.owner = some job.user → t.system.outgoing = [] :=
      fun howner => Decidable.byContradiction fun hout => hbusy ⟨howner, hout⟩
    cases hp : t.progress with
    | relaxing | flushing =>
      have hinside : t.system.lock.phase job.user = .inside (.long taskName) := h.fits_of hp
      have hout := hfree (h.owner_of_owns (by rw [hinside]; rfl))
      rw [own?, if_neg hbusy, hp, Option.isSome_map]
      exact System.perform?_isSome _ hinside hout
    | returned result => exact absurd hp (hreturned result)
    | _ =>
      rw [own?_eq hp rfl hfree, Option.isSome_map]
      exact h.move_isSome hjoined hwaits hp rfl

end Steady

end Thread

end Layout

end LiveGraph
