import LiveGraph.Proofs.Layout.Course

/-!
# A layout replayed

A layout that ran among other users can be replayed by itself: all that it learns from the others is
whether it is to stop, once in each yield. So `Layout.run`, on the graph that the layout found when it
was let in, and in surroundings that give the same answers, makes the same report, leaves the same graph
and publishes the same events.
-/

namespace LiveGraph

namespace Layout

/-! ## Surroundings with a script -/

/-- Surroundings that hear events without a word, and answer yields from a list. -/
def scripted : Surroundings (List Bool) where
  hear _ answers := (false, answers)
  pause answers := (answers.headD false, answers.tail)

/-- A graph with a receiver for which some events wait, in scripted surroundings. -/
def scene (name : String) (data : GraphData) (lock : LockState) (events : List Event)
    (answers : List Bool) : World (List Bool) :=
  { graph := { name, data, lock, outbox := some events.toArray }, around := answers }

section

variable {name : String} {data : GraphData} {lock : LockState} {events : List Event}
  {answers : List Bool}

theorem deliver_scene (e : Event) :
    (scene name data lock events answers).deliver scripted e
      = scene name data lock (events ++ [e]) answers := by
  simp [scene, World.deliver, scripted]

/-- Events that are delivered are appended to the log of the scene. -/
theorem foldl_deliver_scene (more : List Event) :
    more.foldl (World.deliver scripted) (scene name data lock events answers)
      = scene name data lock (events ++ more) answers := by
  induction more generalizing events with
  | nil => rw [List.foldl_nil, List.append_nil]
  | cons e more ih => rw [List.foldl_cons, deliver_scene, ih, List.append_assoc, List.singleton_append]

/-- An edit changes the graph of the scene, and its events are delivered. -/
theorem edit_scene {α : Type} {act : GraphEdit α} {a : α} {data' : GraphData} {more : Array Event}
    (h : act ⟨data, #[]⟩ = .ok a ⟨data', more⟩) :
    World.edit scripted act (scene name data lock events answers)
      = .ok a (scene name data' lock (events ++ more.toList) answers) := by
  have hdeliver : more.foldl (World.deliver scripted) (scene name data' lock events answers)
      = scene name data' lock (events ++ more.toList) answers := by
    rw [← Array.foldl_toList, foldl_deliver_scene]
  rw [← hdeliver]
  unfold World.edit scene
  dsimp only
  rw [Edit.perform_of_ok h]

/-- A task starts if none is registered, and the start is told. -/
theorem startTask_scene (task : String) (hfree : lock.task = none) :
    World.startTask scripted task (scene name data lock events answers)
      = .ok () (scene name data (lock.start task) (events ++ [.task (some task)]) answers) := by
  obtain ⟨running, cancelled, waiters⟩ := lock
  cases hfree
  rw [← deliver_scene]
  rfl

/-- The end of a task is told. -/
theorem endTask_scene :
    World.endTask scripted (scene name data lock events answers)
      = .ok () (scene name data lock.finish (events ++ [.task none]) answers) := by
  rw [← deliver_scene]
  rfl

/-- A yield takes its answer from the script. -/
theorem yield_scene (asked : Bool) (hlock : lock.cancelled = false) :
    World.yield scripted (scene name data lock events (asked :: answers))
      = .ok (!asked) (scene name data (if asked then lock.cancel.2 else lock) events answers) := by
  obtain ⟨running, cancelled, waiters⟩ := lock
  cases hlock
  cases asked with
  | false => rfl
  | true => rfl

end

/-! ## What is left to do -/

/-- Does the work of a task and then ends it, also when the work fails. -/
def conclude {ω α : Type} (env : Surroundings ω) (act : WorldM ω α) : WorldM ω α := fun w =>
  match act w with
  | .ok a w => (do World.endTask env; return a : WorldM ω α) w
  | .error e w => (do World.endTask env; throw e : WorldM ω α) w

theorem duringTask_eq {ω α : Type} (env : Surroundings ω) (task : String) (act : WorldM ω α) :
    World.duringTask env task act = World.startTask env task >>= fun _ => conclude env act := rfl

/-- What is left of the loop after a flush. -/
def afterFlush (params : LayoutParams) (left : Nat) (report : LayoutReport) :
    WorldM (List Bool) LayoutReport := do
  if ← World.yield scripted then iterate scripted params left report
  else return { report with cancelled := true }

/-- A round is a relaxation, a flush and what comes after the flush. -/
theorem iterate_succ (params : LayoutParams) (left : Nat) (report : LayoutReport) :
    iterate scripted params (left + 1) report
      = World.edit scripted (relax params) >>= fun displacement =>
        World.edit scripted GraphData.flush >>= fun _ => afterFlush params left
          { report with iterations := report.iterations + 1, displacement := displacement } := rfl

/-- Gives a result. -/
def giving : Except (Failure GraphError) LayoutReport → WorldM (List Bool) LayoutReport
  | .ok report => return report
  | .error e => throw e

/-- What a layout that has come so far is still to do. -/
def Progress.rest (job : Job) : Progress → WorldM (List Bool) LayoutReport
  | ready | asking => Layout.run scripted job.params job.iterations
  | relaxing left report => conclude scripted (iterate scripted job.params (left + 1) report)
  | flushing left report =>
    conclude scripted (do World.edit scripted GraphData.flush; afterFlush job.params left report)
  | publishing left report | yielding left report => conclude scripted (afterFlush job.params left report)
  | closing result | ending result => conclude scripted (giving result)
  | leaving result | returned result => giving result

/-- The work in the task is done. -/
def Progress.isClosed : Progress → Bool
  | closing _ | ending _ | leaving _ | returned _ => true
  | _ => false

theorem Progress.rest_loop (job : Job) (left : Nat) (report : LayoutReport) :
    (loop left report).rest job = conclude scripted (iterate scripted job.params left report) := by
  cases left <;> rfl

/-- The first part of the work is done. -/
theorem conclude_bind {α : Type} {x : WorldM (List Bool) α} {a : α} {w w' : World (List Bool)}
    (h : x w = .ok a w') (f : α → WorldM (List Bool) LayoutReport) :
    conclude scripted (x >>= f) w = conclude scripted (f a) w' := by
  have hbind : (x >>= f) w = f a w' := by
    show EStateM.bind x f w = f a w'
    rw [EStateM.bind, h]
  unfold conclude
  rw [hbind]

/-- With its result, the layout ends its task. -/
theorem conclude_giving (result : Except (Failure GraphError) LayoutReport) (name : String)
    (data : GraphData) (lock : LockState) (events : List Event) (answers : List Bool) :
    conclude scripted (giving result) (scene name data lock events answers)
      = giving result (scene name data lock.finish (events ++ [.task none]) answers) := by
  cases result with
  | ok report =>
    show EStateM.bind (World.endTask scripted) (fun _ => pure report) _ = _
    rw [EStateM.bind, endTask_scene]
    rfl
  | error e =>
    show EStateM.bind (World.endTask scripted) (fun _ => throw e) _ = _
    rw [EStateM.bind, endTask_scene]
    rfl

/-- A layout starts by telling of its task. -/
theorem run_scene (job : Job) (name : String) (data : GraphData) (answers : List Bool) :
    Layout.run scripted job.params job.iterations (scene name data {} [] answers)
      = (Progress.loop job.iterations {}).rest job
        (scene name data (({} : LockState).start taskName) [.task (some taskName)] answers) := by
  rw [Progress.rest_loop, Layout.run, duringTask_eq]
  show EStateM.bind (World.startTask scripted taskName) _ _ = _
  rw [EStateM.bind, startTask_scene taskName rfl]
  rfl

/-! ## The replay -/

namespace Thread

/-- A layout that found the graph `data` when it was let in, and is replayed by itself with the answers
that it got since then, comes to where the layout is. -/
def Replays (job : Job) (data : GraphData) (t : Thread) : Prop :=
  ∃ answers lock, (t.progress.isClosed = false → lock.cancelled = false) ∧ ∀ future,
    Layout.run scripted job.params job.iterations
        (scene t.system.lock.name data {} [] (answers ++ future))
      = t.progress.rest job
        (scene t.system.lock.name t.system.lock.value lock (t.log ++ t.system.outgoing) future)

namespace Replays

variable {job : Job} {data : GraphData} {t t' : Thread}

/-- A layout that was just let in. -/
theorem enter (hp' : t'.progress = .loop job.iterations {}) (htells : Tells t (some taskName) t')
    (hlog : t.log = []) (hout : t.system.outgoing = []) :
    Replays job t.system.lock.value t' := by
  refine ⟨[], ({} : LockState).start taskName, fun _ => rfl, fun future => ?_⟩
  rw [hp', htells.value, htells.log, htells.outgoing, hlog, hout]
  exact run_scene job _ _ future

/-- The replay goes on in the same way while nothing changes. -/
theorem congr (h : Replays job data t) (hname : t'.system.lock.name = t.system.lock.name)
    (hvalue : t'.system.lock.value = t.system.lock.value)
    (hevents : t'.log ++ t'.system.outgoing = t.log ++ t.system.outgoing)
    (hrest : t'.progress.rest job = t.progress.rest job)
    (hclosed : t'.progress.isClosed = t.progress.isClosed) : Replays job data t' := by
  unfold Replays
  rw [hname, hvalue, hevents, hrest, hclosed]
  exact h

/-- A step that does nothing but move the lock. -/
theorem same (h : Replays job data t) (hname : t'.system.lock.name = t.system.lock.name)
    (hsame : Same t t') (hrest : t'.progress.rest job = t.progress.rest job)
    (hclosed : t'.progress.isClosed = t.progress.isClosed) : Replays job data t' :=
  h.congr hname hsame.value (by rw [hsame.log, hsame.outgoing]) hrest hclosed

/-- Every step of the layout is a step of the replay, or none. -/
theorem own (h : Replays job data t) (hcourse : Course job t t' t.progress t'.progress)
    (hname : t'.system.lock.name = t.system.lock.name)
    (hconsistent : t.system.lock.value.Consistent) (hready : t.progress ≠ .ready)
    (hasking : t.progress ≠ .asking)
    (hending : ∀ result, t.progress = .ending result → t.system.outgoing = []) :
    Replays job data t' := by
  generalize hp : t.progress = p at hcourse
  generalize hp' : t'.progress = p' at hcourse
  cases hcourse with
  | call => exact absurd hp hready
  | ask | refuse | enter => exact absurd hp hasking
  -- the replay has published the event with the flush, when it was still under way here
  | publish hout hlock hlog _ =>
    refine h.congr hname (by rw [hlock]) ?_ (by rw [hp, hp']) (by rw [hp, hp'])
    rw [hlog, hout, List.append_assoc, List.singleton_append]
  | yield hsame _ | close hsame _ | leave hsame _ =>
    exact h.same hname hsame (by rw [hp, hp']; rfl) (by rw [hp, hp']; rfl)
  | rest hsame _ | clear hsame _ => exact h.same hname hsame (by rw [hp, hp']) (by rw [hp, hp'])
  | relax hrelax hout hout' hlog =>
    obtain ⟨answers, lock, hlock, hrun⟩ := h
    refine ⟨answers, lock, fun _ => hlock (by rw [hp]; rfl), fun future => ?_⟩
    rw [hname, hrun, hp, hp', hlog, hout, hout', Progress.rest, iterate_succ,
      conclude_bind (edit_scene hrelax), Array.toList_empty, List.append_nil]
    rfl
  | flush hvalue hout hout' hlog =>
    obtain ⟨answers, lock, hlock, hrun⟩ := h
    refine ⟨answers, lock, fun _ => hlock (by rw [hp]; rfl), fun future => ?_⟩
    rw [hname, hrun, hp, hp', hvalue, hlog, hout, hout', Progress.rest,
      conclude_bind (edit_scene (hconsistent.flush_eq_flushed #[])), Array.empty_append,
      List.append_nil]
    rfl
  -- the answer of this yield is added to the script
  | stop hsame _ _ =>
    obtain ⟨answers, lock, hlock, hrun⟩ := h
    have hfalse := hlock (by rw [hp]; rfl)
    refine ⟨answers ++ [true], lock.cancel.2, fun hclosed => ?_, fun future => ?_⟩
    · rw [hp'] at hclosed
      cases hclosed
    · rw [hname, List.append_assoc, List.singleton_append, hrun (true :: future), hp, hp',
        hsame.value, hsame.log, hsame.outgoing, Progress.rest, afterFlush,
        conclude_bind (yield_scene true hfalse)]
      rfl
  | resume hsame _ _ =>
    obtain ⟨answers, lock, hlock, hrun⟩ := h
    have hfalse := hlock (by rw [hp]; rfl)
    refine ⟨answers ++ [false], lock, fun _ => hfalse, fun future => ?_⟩
    rw [hname, List.append_assoc, List.singleton_append, hrun (false :: future), hp, hp',
      Progress.rest_loop, hsame.value, hsame.log, hsame.outgoing, Progress.rest, afterFlush,
      conclude_bind (yield_scene false hfalse)]
    rfl
  | tell htells _ _ =>
    obtain ⟨answers, lock, -, hrun⟩ := h
    refine ⟨answers, lock.finish, fun _ => rfl, fun future => ?_⟩
    rw [hname, hrun, hp, hp', htells.value, htells.log, htells.outgoing, hending _ hp,
      List.append_nil, List.append_nil]
    exact conclude_giving _ _ _ _ _ _

end Replays

end Thread

end Layout

end LiveGraph
