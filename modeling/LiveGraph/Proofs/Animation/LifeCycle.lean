import LiveGraph.Proofs.Animation

/-!
# The life of an animation

An animation is added, makes progress in every tick while it runs, and leaves once: in a tick, and then
its end callback runs if it has one, or because it is cancelled, and then nothing runs. Progress functions
have a state of their own and change a context that all animations share; so do callbacks, but without a
state (`Routines`).

Which functions are called is observed from within: `Routines.record` is a run in which every function
also writes down its call, and in all else it is the run without such notes. `Turns` says what one tick
does, animation by animation.
-/

namespace LiveGraph

/-- What the animations of a set do to a context `C`. -/
structure Routines (C σ ω : Type) where
  /-- A call of a progress function: whether the animation goes on, and the state and the context that the
  call leaves. -/
  progress : σ → C → Double → Bool × σ × C
  /-- A call of an end callback. -/
  callback : ω → C → C

namespace Routines

variable {C σ ω : Type} (r : Routines C σ ω)

/-! ## Runs -/

/-- The end of an animation, which has a callback or not. -/
def conclude : Option ω → C → C
  | some w, c => r.callback w c
  | none, c => c

/-- The effects of animations: the state of a progress function, and the callback if there is one. -/
def choreography : Choreography C (σ × Option ω) where
  progress e c time :=
    let (goesOn, state, c) := r.progress e.1 c time
    (goesOn, (state, e.2), c)
  finish e c := r.conclude e.2 c

/-- What can be asked of a set of animations. -/
inductive Request (σ ω : Type)
  /-- Start an animation, with an end callback or without. -/
  | add (duration : Double) (state : σ) (callback : Option ω)
  /-- Remove an animation. -/
  | cancel (id : Nat)
  /-- Advance all animations. -/
  | tick (dt : Double)

/-- The animations and the context after a request. -/
def step (p : AnimationSet (σ × Option ω) × C) : Request σ ω → AnimationSet (σ × Option ω) × C
  | .add duration state callback => ((p.1.add duration (state, callback)).2, p.2)
  | .cancel id => ((p.1.cancel id).2, p.2)
  | .tick dt => p.1.tick r.choreography p.2 dt

/-- The animations and the context after some requests. -/
def play (c : C) (requests : List (Request σ ω)) : AnimationSet (σ × Option ω) × C :=
  requests.foldl r.step ({}, c)

/-- The ids of the running animations, in their order. -/
def ids (c : C) (requests : List (Request σ ω)) : List Nat :=
  (r.play c requests).1.running.map (·.id)

/-- The end callbacks of all animations that were added, in the order of their ids. -/
def callbacks (requests : List (Request σ ω)) : List (Option ω) :=
  requests.filterMap fun
    | .add _ _ callback => some callback
    | _ => none

/-! ## Records of calls -/

/-- A call that was made. -/
inductive Called
  /-- The progress function of an animation. -/
  | progress (id : Nat)
  /-- The end callback of an animation. -/
  | ended (id : Nat)
deriving DecidableEq, Repr

/-- The same effects, each labelled with the id of its animation. They write their calls down. -/
def recorder : Choreography (C × List Called) (Nat × σ × Option ω) where
  progress e c time :=
    let (goesOn, state, c') := r.progress e.2.1 c.1 time
    (goesOn, (e.1, state, e.2.2), (c', c.2 ++ [.progress e.1]))
  finish e c := (r.conclude e.2.2 c.1, c.2 ++ (e.2.2.map fun _ => Called.ended e.1).toList)

/-- A request to animations that write their calls down. -/
def recordStep (p : AnimationSet (Nat × σ × Option ω) × C × List Called) :
    Request σ ω → AnimationSet (Nat × σ × Option ω) × C × List Called
  | .add duration state callback => ((p.1.add duration (p.1.nextId, state, callback)).2, p.2)
  | .cancel id => ((p.1.cancel id).2, p.2)
  | .tick dt => p.1.tick r.recorder p.2 dt

/-- The run of some requests with all calls written down. -/
def record (c : C) (requests : List (Request σ ω)) :
    AnimationSet (Nat × σ × Option ω) × C × List Called :=
  requests.foldl r.recordStep ({}, c, [])

/-- The calls that some requests lead to. -/
def log (c : C) (requests : List (Request σ ω)) : List Called := (r.record c requests).2.2

/-- An animation without its label. -/
def plain (a : Animation (Nat × σ × Option ω)) : Animation (σ × Option ω) :=
  { id := a.id, elapsed := a.elapsed, duration := a.duration, effect := a.effect.2 }

/-- The animations without their labels. -/
def plainSet (s : AnimationSet (Nat × σ × Option ω)) : AnimationSet (σ × Option ω) :=
  { running := s.running.map plain, nextId := s.nextId }

/-- A further request acts on what the earlier ones have left. -/
theorem play_concat (c : C) (requests : List (Request σ ω)) (q : Request σ ω) :
    r.play c (requests ++ [q]) = r.step (r.play c requests) q := by
  unfold play
  rw [List.foldl_append]
  rfl

theorem record_concat (c : C) (requests : List (Request σ ω)) (q : Request σ ω) :
    r.record c (requests ++ [q]) = r.recordStep (r.record c requests) q := by
  unfold record
  rw [List.foldl_append]
  rfl

/-- What holds without requests, and is kept by each further request, holds after all requests. -/
theorem request_induction {P : List (Request σ ω) → Prop} (hnil : P [])
    (hconcat : ∀ requests q, P requests → P (requests ++ [q])) (requests : List (Request σ ω)) :
    P requests := by
  -- by induction on the requests that are still to come, whatever came before them
  have hgo : ∀ later earlier, P earlier → P (earlier ++ later) := by
    intro later
    induction later with
    | nil =>
      intro earlier h
      rw [List.append_nil]
      exact h
    | cons q later ih =>
      intro earlier h
      have hnext := ih (earlier ++ [q]) (hconcat earlier q h)
      rwa [List.append_assoc] at hnext
  exact hgo requests [] hnil

/-! ## One tick -/

/-- What a tick does, animation by animation: the animations and the context before it, the animations that
still run after it, the calls that were made, and the context then. Each animation makes progress on what
the one before it has left. It leaves if its time exceeds its duration or its progress function says so, and
then its callback runs before the next animation makes progress. -/
inductive Turns (dt : Double) : List (Animation (σ × Option ω)) → C →
    List (Animation (σ × Option ω)) → List Called → C → Prop
  | done (c : C) : Turns dt [] c [] [] c
  /-- An animation goes on. -/
  | stays {a : Animation (σ × Option ω)} {rest kept : List (Animation (σ × Option ω))} {c c' c'' : C}
      {state : σ} {calls : List Called}
      (hprogress : r.progress a.effect.1 c ((dt + a.elapsed).min a.duration) = (true, state, c'))
      (htime : a.duration.lt (dt + a.elapsed) = false) (hrest : Turns dt rest c' kept calls c'') :
      Turns dt (a :: rest) c ({ a with elapsed := dt + a.elapsed, effect := (state, a.effect.2) } :: kept)
        (.progress a.id :: calls) c''
  /-- An animation leaves. -/
  | leaves {a : Animation (σ × Option ω)} {rest kept : List (Animation (σ × Option ω))} {c c' c'' : C}
      {goesOn : Bool} {state : σ} {calls : List Called}
      (hprogress : r.progress a.effect.1 c ((dt + a.elapsed).min a.duration) = (goesOn, state, c'))
      (hends : a.duration.lt (dt + a.elapsed) = true ∨ goesOn = false)
      (hrest : Turns dt rest (r.conclude a.effect.2 c') kept calls c'') :
      Turns dt (a :: rest) c kept
        (.progress a.id :: ((a.effect.2.map fun _ => Called.ended a.id).toList ++ calls)) c''

variable {r}

/-- The turns are those of the effects without records. -/
theorem Turns.advance_eq {dt : Double} {as kept : List (Animation (σ × Option ω))} {c c' : C}
    {calls : List Called} (h : r.Turns dt as c kept calls c') :
    AnimationSet.advance r.choreography dt as c = (kept, c') := by
  induction h with
  | done c => rfl
  | @stays a rest kept c c' c'' state calls hprogress htime _ ih =>
    have heffect : r.choreography.progress a.effect c ((dt + a.elapsed).min a.duration)
        = (true, (state, a.effect.2), c') := by
      simp only [choreography, hprogress]
    rw [AnimationSet.advance_of_progress r.choreography dt heffect, htime, ih]
    rfl
  | @leaves a rest kept c c' c'' goesOn state calls hprogress hends _ ih =>
    have heffect : r.choreography.progress a.effect c ((dt + a.elapsed).min a.duration)
        = (goesOn, (state, a.effect.2), c') := by
      simp only [choreography, hprogress]
    have hleaves : (a.duration.lt (dt + a.elapsed) || !goesOn) = true := by
      simpa using hends
    rw [AnimationSet.advance_of_progress r.choreography dt heffect, if_pos hleaves]
    exact ih

variable (r) in
/-- A tick of animations that are labelled with their ids gives them their turns. -/
theorem turns_advance {as : List (Animation (Nat × σ × Option ω))} (hlabels : ∀ a ∈ as, a.effect.1 = a.id)
    (dt : Double) (c : C) (log : List Called) :
    ∃ calls, (AnimationSet.advance r.recorder dt as (c, log)).2.2 = log ++ calls ∧
      r.Turns dt (as.map plain) c ((AnimationSet.advance r.recorder dt as (c, log)).1.map plain) calls
        (AnimationSet.advance r.recorder dt as (c, log)).2.1 := by
  induction as generalizing c log with
  | nil => exact ⟨[], (List.append_nil log).symm, .done c⟩
  | cons a as ih =>
    have hlabel : a.effect.1 = a.id := hlabels a List.mem_cons_self
    have hrest := ih fun x hx => hlabels x (List.mem_cons_of_mem a hx)
    cases hprogress : r.progress a.effect.2.1 c ((dt + a.elapsed).min a.duration) with
    | mk goesOn next =>
      have heffect : r.recorder.progress a.effect (c, log) ((dt + a.elapsed).min a.duration)
          = (goesOn, (a.id, next.1, a.effect.2.2), (next.2, log ++ [.progress a.id])) := by
        simp only [recorder, hprogress, hlabel]
      rw [AnimationSet.advance_of_progress r.recorder dt heffect]
      cases hleaves : a.duration.lt (dt + a.elapsed) || !goesOn with
      | true =>
        -- it leaves, and the others find the context that its callback has left
        have hends : a.duration.lt (dt + a.elapsed) = true ∨ goesOn = false := by
          simpa using hleaves
        obtain ⟨calls, hcalls, hturns⟩ := hrest (r.conclude a.effect.2.2 next.2)
          (log ++ [.progress a.id] ++ (a.effect.2.2.map fun _ => Called.ended a.id).toList)
        refine ⟨.progress a.id :: ((a.effect.2.2.map fun _ => Called.ended a.id).toList ++ calls), ?_,
          .leaves (a := plain a) hprogress hends hturns⟩
        rw [if_pos rfl]
        refine hcalls.trans ?_
        simp
      | false =>
        obtain ⟨htime, hon⟩ := Bool.or_eq_false_iff.1 hleaves
        obtain ⟨calls, hcalls, hturns⟩ := hrest next.2 (log ++ [.progress a.id])
        have hstays : goesOn = true := by simpa using hon
        rw [hstays] at hprogress
        refine ⟨.progress a.id :: calls, ?_, .stays (a := plain a) hprogress htime hturns⟩
        rw [if_neg Bool.false_ne_true]
        refine hcalls.trans ?_
        simp

/-! ## Calls in one tick -/

namespace Called

/-- The animation that made progress in a call. -/
def progressed? : Called → Option Nat
  | progress id => some id
  | ended _ => none

/-- The animation that ended in a call. -/
def ended? : Called → Option Nat
  | progress _ => none
  | ended id => some id

/-- The calls of progress functions are listed by their ids. -/
theorem mem_progressed {id : Nat} {calls : List Called} :
    .progress id ∈ calls ↔ id ∈ calls.filterMap progressed? := by
  rw [List.mem_filterMap]
  constructor
  · exact fun h => ⟨_, h, rfl⟩
  · rintro ⟨call, hcall, hid⟩
    cases call with
    | progress x =>
      cases hid
      exact hcall
    | ended x => cases hid

/-- The calls of callbacks are counted by their ids. -/
theorem count_ended (id : Nat) (calls : List Called) :
    calls.count (.ended id) = (calls.filterMap ended?).count id := by
  induction calls with
  | nil => rfl
  | cons call calls ih =>
    cases call with
    | progress x =>
      rw [List.filterMap_cons_none rfl, ← ih]
      exact List.count_cons_of_ne (by simp)
    | ended x => simp [ended?, List.count_cons, ih]

theorem mem_ended {id : Nat} {calls : List Called} :
    .ended id ∈ calls ↔ id ∈ calls.filterMap ended? := by
  rw [← List.count_pos_iff, count_ended, List.count_pos_iff]

end Called

variable {dt : Double} {as kept : List (Animation (σ × Option ω))} {c c' : C} {calls : List Called}

/-- Those that still run are in their old order. -/
theorem Turns.sublist (h : r.Turns dt as c kept calls c') :
    (kept.map (·.id)).Sublist (as.map (·.id)) := by
  induction h with
  | done c => exact .slnil
  | stays _ _ _ ih => exact ih.cons_cons _
  | leaves _ _ _ ih => exact ih.cons _

/-- Every animation makes progress once, in order. -/
theorem Turns.progressed (h : r.Turns dt as c kept calls c') :
    calls.filterMap Called.progressed? = as.map (·.id) := by
  induction h with
  | done c => rfl
  | stays _ _ _ ih => exact congrArg (List.cons _) ih
  | @leaves a _ _ _ _ _ _ _ _ _ _ _ ih =>
    cases hcallback : a.effect.2 with
    | none => exact congrArg (List.cons _) ih
    | some w => exact congrArg (List.cons _) ih

/-- The ids of those animations of `as` that are not among `kept` and have an end callback. -/
def leavers (as kept : List (Animation (σ × Option ω))) : List Nat :=
  (as.filter fun a => decide (a.id ∉ kept.map (·.id)) && a.effect.2.isSome).map (·.id)

theorem leavers_sublist (as kept : List (Animation (σ × Option ω))) :
    (leavers as kept).Sublist (as.map (·.id)) := List.filter_sublist.map _

/-- Who leaves with a callback was there, and is not kept. -/
theorem mem_leavers {id : Nat} :
    id ∈ leavers as kept ↔ id ∉ kept.map (·.id) ∧ ∃ a ∈ as, a.id = id ∧ a.effect.2.isSome = true := by
  unfold leavers
  rw [List.mem_map]
  constructor
  · rintro ⟨a, ha, rfl⟩
    obtain ⟨hin, hleaves⟩ := List.mem_filter.1 ha
    obtain ⟨hout, hsome⟩ := (Bool.and_eq_true _ _).mp hleaves
    exact ⟨of_decide_eq_true hout, a, hin, rfl, hsome⟩
  · rintro ⟨hout, a, hin, rfl, hsome⟩
    exact ⟨a, List.mem_filter.2 ⟨hin, (Bool.and_eq_true _ _).mpr ⟨decide_eq_true hout, hsome⟩⟩, rfl⟩

/-- The callbacks that run are those of the animations that leave and have one, in order. -/
theorem Turns.ended (h : r.Turns dt as c kept calls c') (hnodup : (as.map (·.id)).Nodup) :
    calls.filterMap Called.ended? = leavers as kept := by
  unfold leavers
  induction h with
  | done c => rfl
  | @stays a rest kept c c' c'' state calls _ _ hrest ih =>
    obtain ⟨hfirst, hothers⟩ := List.nodup_cons.1 hnodup
    -- that this one is kept says nothing about the others, which have other ids
    have hsame : ∀ b ∈ rest, b.id ≠ a.id := fun b hb heq => hfirst (List.mem_map.2 ⟨b, hb, heq⟩)
    rw [List.filterMap_cons_none rfl, ih hothers, List.filter_cons_of_neg (by simp)]
    refine congrArg (List.map _) (List.filter_congr fun b hb => ?_)
    simp [hsame b hb]
  | @leaves a rest kept c c' c'' goesOn state calls _ _ hrest ih =>
    obtain ⟨hfirst, hothers⟩ := List.nodup_cons.1 hnodup
    -- what is kept are some of the others, which have other ids
    have hleft : a.id ∉ kept.map (·.id) := fun hin => hfirst (hrest.sublist.subset hin)
    rw [List.filterMap_cons_none rfl, List.filterMap_append, ih hothers]
    cases hcallback : a.effect.2 with
    | none =>
      rw [List.filter_cons_of_neg (by simp [hcallback])]
      rfl
    | some w =>
      rw [List.filter_cons_of_pos (by simp [hcallback, hleft])]
      rfl

/-! ## Ids -/

/-- The animations of a record after some requests: they are labelled with their ids, which increase, and
have the callbacks that they were added with. -/
structure Labelled (requests : List (Request σ ω)) (s : AnimationSet (Nat × σ × Option ω)) : Prop where
  increasing : s.running.Pairwise fun a b => a.id < b.id
  nextId : s.nextId = (callbacks requests).length
  label : ∀ a ∈ s.running, a.effect.1 = a.id
  callback : ∀ a ∈ s.running, (callbacks requests)[a.id]? = some a.effect.2.2

theorem callbacks_concat (requests : List (Request σ ω)) (q : Request σ ω) :
    callbacks (requests ++ [q]) = callbacks requests ++ callbacks [q] := List.filterMap_append

/-- Ids that are in use are smaller than the next one. -/
theorem Labelled.lt_nextId {requests : List (Request σ ω)} {s : AnimationSet (Nat × σ × Option ω)}
    (h : Labelled requests s) {a : Animation (Nat × σ × Option ω)} (ha : a ∈ s.running) :
    a.id < s.nextId := by
  rw [h.nextId]
  exact (List.getElem?_eq_some_iff.1 (h.callback a ha)).1

/-- No id is used twice at a time. -/
theorem Labelled.nodup {requests : List (Request σ ω)} {s : AnimationSet (Nat × σ × Option ω)}
    (h : Labelled requests s) : (s.running.map (·.id)).Nodup :=
  List.pairwise_map.2 (h.increasing.imp Nat.ne_of_lt)

/-- An animation that still runs has its id, its label and its callback from before. -/
theorem kept_of_mem_advance {as : List (Animation (Nat × σ × Option ω))} {c : C × List Called}
    {k : Animation (Nat × σ × Option ω)} (hk : k ∈ (AnimationSet.advance r.recorder dt as c).1) :
    ∃ a ∈ as, k.id = a.id ∧ k.effect.1 = a.effect.1 ∧ k.effect.2.2 = a.effect.2.2 := by
  obtain ⟨earlier, a, rest, rfl, hturn⟩ := AnimationSet.mem_advance r.recorder dt hk
  obtain ⟨hid, time, heffect⟩ := AnimationSet.mem_advance_singleton r.recorder dt hturn
  refine ⟨a, List.mem_append_right _ List.mem_cons_self, hid, ?_, ?_⟩
  · rw [heffect]
    rfl
  · rw [heffect]
    rfl

theorem map_id_plain (as : List (Animation (Nat × σ × Option ω))) :
    (as.map plain).map (·.id) = as.map (·.id) := List.map_map

/-- The labels stay right with every request: ids are given in increasing order, and each animation
keeps the one it was added with. -/
theorem Labelled.step {requests : List (Request σ ω)}
    {p : AnimationSet (Nat × σ × Option ω) × C × List Called} (h : Labelled requests p.1)
    (q : Request σ ω) : Labelled (requests ++ [q]) (r.recordStep p q).1 := by
  cases q with
  | add duration state callback =>
    have hcallbacks : callbacks (requests ++ [.add duration state callback])
        = callbacks requests ++ [callback] := callbacks_concat requests _
    refine ⟨?_, ?_, ?_, ?_⟩
    · refine List.pairwise_append.2 ⟨h.increasing, List.pairwise_singleton _ _, fun a ha b hb => ?_⟩
      rw [List.mem_singleton.1 hb]
      exact h.lt_nextId ha
    · rw [hcallbacks, List.length_append, ← h.nextId]
      rfl
    · intro a ha
      rcases List.mem_append.1 ha with hold | hnew
      · exact h.label a hold
      · rw [List.mem_singleton.1 hnew]
    · intro a ha
      rw [hcallbacks]
      rcases List.mem_append.1 ha with hold | hnew
      · have hlt := h.lt_nextId hold
        rw [h.nextId] at hlt
        rw [List.getElem?_append_left hlt]
        exact h.callback a hold
      · rw [List.mem_singleton.1 hnew]
        show (callbacks requests ++ [callback])[p.1.nextId]? = _
        rw [h.nextId, List.getElem?_concat_length]
  -- what runs after a cancellation ran before
  | cancel id =>
    have hcallbacks : callbacks (requests ++ [.cancel id]) = callbacks requests :=
      (callbacks_concat requests _).trans (List.append_nil _)
    refine ⟨h.increasing.filter _, ?_, fun a ha => h.label a (List.mem_filter.1 ha).1, fun a ha => ?_⟩
    · rw [hcallbacks]
      exact h.nextId
    · rw [hcallbacks]
      exact h.callback a (List.mem_filter.1 ha).1
  -- an animation that is kept is the old one with another state and time
  | tick dt =>
    have hcallbacks : callbacks (requests ++ [.tick dt]) = callbacks requests :=
      (callbacks_concat requests _).trans (List.append_nil _)
    obtain ⟨calls, -, hturns⟩ := turns_advance r h.label dt p.2.1 p.2.2
    refine ⟨?_, ?_, fun k hk => ?_, fun k hk => ?_⟩
    · have hids := hturns.sublist
      rw [map_id_plain, map_id_plain] at hids
      exact List.pairwise_map.1 ((List.pairwise_map.2 h.increasing).sublist hids)
    · rw [hcallbacks]
      exact h.nextId
    · obtain ⟨a, ha, hid, hlabel, -⟩ := kept_of_mem_advance hk
      rw [hid, hlabel]
      exact h.label a ha
    · obtain ⟨a, ha, hid, -, hcallback⟩ := kept_of_mem_advance hk
      rw [hcallbacks, hid, hcallback]
      exact h.callback a ha

variable (r) in
/-- The labels are right after any requests. -/
theorem labelled_record (c : C) (requests : List (Request σ ω)) :
    Labelled requests (r.record c requests).1 := by
  induction requests using request_induction with
  | hnil => exact ⟨.nil, rfl, fun _ ha => absurd ha List.not_mem_nil, fun _ ha => absurd ha List.not_mem_nil⟩
  | hconcat requests q ih =>
    rw [record_concat]
    exact ih.step q

variable (r) in
/-- Writing the calls down changes nothing else. -/
theorem play_eq (c : C) (requests : List (Request σ ω)) :
    r.play c requests = (plainSet (r.record c requests).1, (r.record c requests).2.1) := by
  induction requests using request_induction with
  | hnil => rfl
  | hconcat requests q ih =>
    have hlabels := (labelled_record r c requests).label
    rw [play_concat, record_concat, ih]
    cases q with
    | add duration state callback => simp [step, recordStep, AnimationSet.add, plainSet, plain]
    | cancel id =>
      simp only [step, recordStep, AnimationSet.cancel, plainSet, List.filter_map]
      rfl
    | tick dt =>
      obtain ⟨calls, -, hturns⟩ :=
        turns_advance r hlabels dt (r.record c requests).2.1 (r.record c requests).2.2
      simp only [step, AnimationSet.tick, plainSet, hturns.advance_eq]
      rfl

variable (r) in
theorem ids_eq (c : C) (requests : List (Request σ ω)) :
    r.ids c requests = (r.record c requests).1.running.map (·.id) := by
  unfold ids
  rw [play_eq]
  exact map_id_plain _

variable (r) in
theorem nodup_ids (c : C) (requests : List (Request σ ω)) : (r.ids c requests).Nodup := by
  rw [ids_eq]
  exact (labelled_record r c requests).nodup

/-! ## Requests one by one -/

variable (r) in
/-- A tick gives the running animations their turns. -/
theorem turns_tick (c : C) (requests : List (Request σ ω)) (dt : Double) :
    ∃ calls, r.log c (requests ++ [.tick dt]) = r.log c requests ++ calls ∧
      r.Turns dt (r.play c requests).1.running (r.play c requests).2
        (r.play c (requests ++ [.tick dt])).1.running calls (r.play c (requests ++ [.tick dt])).2 := by
  have hlabels := (labelled_record r c requests).label
  obtain ⟨calls, hcalls, hturns⟩ :=
    turns_advance r hlabels dt (r.record c requests).2.1 (r.record c requests).2.2
  refine ⟨calls, ?_, ?_⟩
  · unfold log
    rw [record_concat]
    exact hcalls
  · rw [play_eq r c requests, play_eq r c (requests ++ [Request.tick dt]), record_concat]
    exact hturns

variable (r) in
/-- Only a tick makes calls. -/
theorem log_concat (c : C) (requests : List (Request σ ω)) {q : Request σ ω} (hq : ∀ dt, q ≠ .tick dt) :
    r.log c (requests ++ [q]) = r.log c requests := by
  unfold log
  rw [record_concat]
  cases q with
  | add duration state callback => rfl
  | cancel id => rfl
  | tick dt => exact absurd rfl (hq dt)

variable (r) in
/-- An animation gets the number of those that were added before it as its id. -/
theorem ids_add (c : C) (requests : List (Request σ ω)) (duration : Double) (state : σ)
    (callback : Option ω) :
    r.ids c (requests ++ [.add duration state callback])
      = r.ids c requests ++ [(callbacks requests).length] := by
  rw [ids_eq, ids_eq, record_concat, ← (labelled_record r c requests).nextId]
  exact List.map_append

variable (r) in
/-- Cancelling takes one id from those that run. -/
theorem ids_cancel (c : C) (requests : List (Request σ ω)) (id : Nat) :
    r.ids c (requests ++ [.cancel id]) = (r.ids c requests).filter (· != id) := by
  rw [ids_eq, ids_eq, record_concat, List.filter_map]
  rfl

variable (r) in
/-- A request brings the next id at most, and makes calls to running animations only. -/
theorem ids_concat (c : C) (requests : List (Request σ ω)) (q : Request σ ω) :
    (∀ id ∈ r.ids c (requests ++ [q]), id ∈ r.ids c requests ∨ id = (callbacks requests).length) ∧
      ∃ new, r.log c (requests ++ [q]) = r.log c requests ++ new ∧
        ∀ id, .progress id ∈ new ∨ .ended id ∈ new → id ∈ r.ids c requests := by
  cases q with
  | add duration state callback =>
    refine ⟨fun id hid => ?_, [], ?_, fun id hid => by simp at hid⟩
    · rw [ids_add, List.mem_append, List.mem_singleton] at hid
      exact hid
    · rw [log_concat r c requests (by simp), List.append_nil]
  | cancel x =>
    refine ⟨fun id hid => ?_, [], ?_, fun id hid => by simp at hid⟩
    · rw [ids_cancel, List.mem_filter] at hid
      exact .inl hid.1
    · rw [log_concat r c requests (by simp), List.append_nil]
  | tick dt =>
    obtain ⟨calls, hcalls, hturns⟩ := turns_tick r c requests dt
    refine ⟨fun id hid => .inl (hturns.sublist.subset hid), calls, hcalls, fun id hid => ?_⟩
    rcases hid with hprogress | hended
    · rw [Called.mem_progressed, hturns.progressed] at hprogress
      exact hprogress
    · rw [Called.mem_ended, hturns.ended (nodup_ids r c requests)] at hended
      exact (leavers_sublist _ _).subset hended

/-! ## Leaving -/

variable (r) in
/-- An animation that does not run any more never runs again, and none of its functions is called. -/
theorem gone {c : C} {requests : List (Request σ ω)} {id : Nat} (hlt : id < (callbacks requests).length)
    (hout : id ∉ r.ids c requests) (later : List (Request σ ω)) :
    id ∉ r.ids c (requests ++ later) ∧ ∃ new, r.log c (requests ++ later) = r.log c requests ++ new ∧
      .progress id ∉ new ∧ .ended id ∉ new := by
  induction later generalizing requests with
  | nil =>
    rw [List.append_nil]
    exact ⟨hout, [], (List.append_nil _).symm, List.not_mem_nil, List.not_mem_nil⟩
  | cons q later ih =>
    obtain ⟨hids, first, hfirst, hcalls⟩ := ids_concat r c requests q
    have hlt' : id < (callbacks (requests ++ [q])).length := by
      rw [callbacks_concat, List.length_append]
      omega
    -- ids are never given again
    have hout' : id ∉ r.ids c (requests ++ [q]) := by
      intro hin
      rcases hids id hin with hold | hnew
      · exact hout hold
      · omega
    obtain ⟨hgone, new, hnew, hprogress, hended⟩ := ih hlt' hout'
    rw [List.append_assoc, List.singleton_append] at hgone hnew
    refine ⟨hgone, first ++ new, ?_, ?_, ?_⟩
    · rw [hnew, hfirst, List.append_assoc]
    · rw [List.mem_append]
      exact not_or_intro (fun h => hout (hcalls id (.inl h))) hprogress
    · rw [List.mem_append]
      exact not_or_intro (fun h => hout (hcalls id (.inr h))) hended

variable (r) in
/-- One of the requests that are meant made the animation leave. -/
def LeftBy (c : C) (requests : List (Request σ ω)) (meant : Request σ ω → Prop) (id : Nat) : Prop :=
  ∃ earlier q later, requests = earlier ++ q :: later ∧ meant q ∧ id ∈ r.ids c earlier ∧
    id ∉ r.ids c (earlier ++ [q])

/-- An animation has left by some requests and one more if it had left before, or leaves by the last. -/
theorem leftBy_concat {c : C} {requests : List (Request σ ω)} {q : Request σ ω}
    {meant : Request σ ω → Prop} {id : Nat} :
    r.LeftBy c (requests ++ [q]) meant id ↔
      r.LeftBy c requests meant id ∨
        meant q ∧ id ∈ r.ids c requests ∧ id ∉ r.ids c (requests ++ [q]) := by
  constructor
  · rintro ⟨earlier, q', later, hsplit, hleft⟩
    rcases List.eq_nil_or_concat later with rfl | ⟨later', last, rfl⟩
    · obtain ⟨rfl, hlast⟩ := List.append_inj' hsplit rfl
      cases hlast
      exact .inr hleft
    · rw [List.concat_eq_append, ← List.cons_append, ← List.append_assoc] at hsplit
      obtain ⟨hrequests, -⟩ := List.append_inj' hsplit rfl
      exact .inl ⟨earlier, q', later', hrequests, hleft⟩
  · rintro (⟨earlier, q', later, rfl, hleft⟩ | hleft)
    · exact ⟨earlier, q', later ++ [q], by simp, hleft⟩
    · exact ⟨requests, q, [], rfl, hleft⟩

theorem lt_of_mem_ids {c : C} {requests : List (Request σ ω)} {id : Nat} (h : id ∈ r.ids c requests) :
    id < (callbacks requests).length := by
  have hlabelled := labelled_record r c requests
  rw [ids_eq] at h
  obtain ⟨a, ha, rfl⟩ := List.mem_map.1 h
  rw [← hlabelled.nextId]
  exact hlabelled.lt_nextId ha

/-- An animation that left was added, and does not run. -/
theorem LeftBy.absent {c : C} {requests : List (Request σ ω)} {meant : Request σ ω → Prop} {id : Nat}
    (h : r.LeftBy c requests meant id) :
    id < (callbacks requests).length ∧ id ∉ r.ids c requests := by
  obtain ⟨earlier, q, later, rfl, -, hin, hout⟩ := h
  have hlt : id < (callbacks (earlier ++ [q])).length := by
    rw [callbacks_concat, List.length_append]
    exact Nat.lt_add_right _ (lt_of_mem_ids hin)
  have hsplit : earlier ++ q :: later = (earlier ++ [q]) ++ later := by simp
  rw [hsplit]
  refine ⟨?_, (gone r hlt hout later).1⟩
  unfold callbacks at hlt ⊢
  rw [List.filterMap_append, List.length_append]
  exact Nat.lt_add_right _ hlt

/-- The animation has an end callback. -/
def HasCallback (requests : List (Request σ ω)) (id : Nat) : Prop :=
  ∃ w, (callbacks requests)[id]? = some (some w)

theorem hasCallback_concat {requests : List (Request σ ω)} {id : Nat}
    (hlt : id < (callbacks requests).length) (q : Request σ ω) :
    HasCallback (requests ++ [q]) id ↔ HasCallback requests id := by
  unfold HasCallback
  rw [callbacks_concat, List.getElem?_append_left hlt]

/-- An animation keeps the callback it was added with. -/
theorem callback_of_mem {c : C} {requests : List (Request σ ω)} {a : Animation (σ × Option ω)}
    (ha : a ∈ (r.play c requests).1.running) : (callbacks requests)[a.id]? = some a.effect.2 := by
  rw [play_eq] at ha
  obtain ⟨b, hb, rfl⟩ := List.mem_map.1 ha
  exact (labelled_record r c requests).callback b hb

/-- The request is a tick. -/
def Request.IsTick : Request σ ω → Prop
  | .tick _ => True
  | _ => False

/-- A running animation has a callback if it was added with one. -/
theorem hasCallback_iff {c : C} {requests : List (Request σ ω)} {id : Nat} (h : id ∈ r.ids c requests) :
    HasCallback requests id ↔
      ∃ a ∈ (r.play c requests).1.running, a.id = id ∧ a.effect.2.isSome = true := by
  constructor
  · rintro ⟨w, hw⟩
    obtain ⟨a, ha, rfl⟩ := List.mem_map.1 h
    have hcallback := callback_of_mem ha
    rw [hw, Option.some_inj] at hcallback
    exact ⟨a, ha, rfl, hcallback ▸ rfl⟩
  · rintro ⟨a, ha, rfl, hsome⟩
    obtain ⟨w, hw⟩ := Option.isSome_iff_exists.1 hsome
    exact ⟨w, hw ▸ callback_of_mem ha⟩

variable (r) in
/-- A tick runs the callbacks of those animations that leave in it, each once, and no other. -/
theorem count_ended_tick (c : C) (requests : List (Request σ ω)) (dt : Double) (id : Nat) :
    ((id ∈ r.ids c requests ∧ id ∉ r.ids c (requests ++ [.tick dt])) ∧ HasCallback requests id →
      (r.log c (requests ++ [.tick dt])).count (.ended id) = (r.log c requests).count (.ended id) + 1) ∧
    (¬ ((id ∈ r.ids c requests ∧ id ∉ r.ids c (requests ++ [.tick dt])) ∧ HasCallback requests id) →
      (r.log c (requests ++ [.tick dt])).count (.ended id) = (r.log c requests).count (.ended id)) := by
  obtain ⟨calls, hcalls, hturns⟩ := turns_tick r c requests dt
  have hnodup := nodup_ids r c requests
  rw [hcalls, List.count_append, Called.count_ended id calls, hturns.ended hnodup]
  constructor
  · rintro ⟨⟨hin, hout⟩, hcallback⟩
    have hleaves := mem_leavers.2 ⟨hout, (hasCallback_iff hin).1 hcallback⟩
    rw [(hnodup.sublist (leavers_sublist _ _)).count, if_pos hleaves]
  · intro hstays
    refine Nat.add_eq_left.2 (List.count_eq_zero_of_not_mem fun hleaves => ?_)
    obtain ⟨hout, hsome⟩ := mem_leavers.1 hleaves
    have hin := (leavers_sublist _ _).subset hleaves
    exact hstays ⟨⟨hin, hout⟩, (hasCallback_iff hin).2 hsome⟩

/-- The animation has left in a tick, and had an end callback. -/
def Ended (r : Routines C σ ω) (c : C) (requests : List (Request σ ω)) (id : Nat) : Prop :=
  r.LeftBy c requests Request.IsTick id ∧ HasCallback requests id

/-- A request in which the animation does not leave by a tick changes nothing about its end. -/
theorem ended_concat {c : C} {requests : List (Request σ ω)} {q : Request σ ω} {id : Nat}
    (h : ¬ (q.IsTick ∧ id ∈ r.ids c requests ∧ id ∉ r.ids c (requests ++ [q]))) :
    r.Ended c (requests ++ [q]) id ↔ r.Ended c requests id := by
  unfold Ended
  rw [leftBy_concat, or_iff_left h]
  exact and_congr_right fun hleft => hasCallback_concat hleft.absent.1 q

variable (r) in
/-- The end callback of an animation runs once if the animation leaves in a tick, and never else. -/
theorem count_ended_log (c : C) (requests : List (Request σ ω)) (id : Nat) :
    (r.Ended c requests id → (r.log c requests).count (.ended id) = 1) ∧
      (¬ r.Ended c requests id → (r.log c requests).count (.ended id) = 0) := by
  induction requests using request_induction with
  | hnil =>
    refine ⟨?_, fun _ => rfl⟩
    rintro ⟨⟨earlier, q, later, hsplit, -⟩, -⟩
    simp at hsplit
  | hconcat requests q ih =>
    -- the count changes only in the tick in which the animation leaves
    by_cases hnow : q.IsTick ∧ id ∈ r.ids c requests ∧ id ∉ r.ids c (requests ++ [q])
    · -- it runs until now, so it has not left before
      have hbefore : ¬ r.Ended c requests id := fun h => h.1.absent.2 hnow.2.1
      have hcallback := hasCallback_concat (lt_of_mem_ids hnow.2.1) q
      have hleft : r.LeftBy c (requests ++ [q]) Request.IsTick id := leftBy_concat.2 (.inr hnow)
      cases q with
      | tick dt =>
        obtain ⟨hruns, hskips⟩ := count_ended_tick r c requests dt id
        constructor
        · intro h
          rw [hruns ⟨hnow.2, hcallback.1 h.2⟩, ih.2 hbefore]
        · intro h
          rw [hskips fun hlast => h ⟨hleft, hcallback.2 hlast.2⟩, ih.2 hbefore]
      | add duration state callback => exact False.elim hnow.1
      | cancel x => exact False.elim hnow.1
    · have hcount : (r.log c (requests ++ [q])).count (.ended id) = (r.log c requests).count (.ended id) := by
        cases q with
        | tick dt => exact (count_ended_tick r c requests dt id).2 fun h => hnow ⟨trivial, h.1⟩
        | add duration state callback => rw [log_concat r c requests (by simp)]
        | cancel x => rw [log_concat r c requests (by simp)]
      rw [ended_concat hnow, hcount]
      exact ih

/-- An animation leaves once. -/
theorem LeftBy.once {c : C} {requests : List (Request σ ω)} {meant meant' : Request σ ω → Prop} {id : Nat}
    (h : r.LeftBy c requests meant id) (h' : r.LeftBy c requests meant' id) : ∃ q, meant q ∧ meant' q := by
  induction requests using request_induction with
  | hnil =>
    obtain ⟨earlier, q, later, hsplit, -⟩ := h
    simp at hsplit
  | hconcat requests q ih =>
    rw [leftBy_concat] at h h'
    -- it cannot have left before and still run until now
    rcases h with hold | hnow
    · rcases h' with hold' | hnow'
      · exact ih hold hold'
      · exact absurd hnow'.2.1 hold.absent.2
    · rcases h' with hold' | hnow'
      · exact absurd hnow.2.1 hold'.absent.2
      · exact ⟨q, hnow.1, hnow'.1⟩

/-- What becomes of the animations in a run of requests. -/
structure LifeCycle (r : Routines C σ ω) (c : C) (requests : List (Request σ ω)) : Prop where
  /-- Calls are written down without any other effect. -/
  faithful : r.play c requests = (plainSet (r.record c requests).1, (r.record c requests).2.1)
  /-- The ids of running animations increase in their order. -/
  increasing : (r.ids c requests).Pairwise (· < ·)
  /-- A new animation gets the number of those before it as its id, so no id is used again. -/
  numbered : ∀ duration effect,
    ((r.play c requests).1.add duration effect).1 = (callbacks requests).length
  bounded : ∀ id ∈ r.ids c requests, id < (callbacks requests).length
  /-- It comes behind the running ones, at the start of its time and with the given duration, state and
  callback. Nothing is called. -/
  add : ∀ duration state callback,
    (r.play c (requests ++ [.add duration state callback])).1.running
      = (r.play c requests).1.running ++
        [{ id := (callbacks requests).length, elapsed := .zero, duration, effect := (state, callback) }] ∧
    (r.play c (requests ++ [.add duration state callback])).2 = (r.play c requests).2 ∧
    r.log c (requests ++ [.add duration state callback]) = r.log c requests
  /-- A tick gives all running animations their turns, in which each makes progress once, in order. -/
  tick : ∀ dt, ∃ calls, r.log c (requests ++ [.tick dt]) = r.log c requests ++ calls ∧
    r.Turns dt (r.play c requests).1.running (r.play c requests).2
      (r.play c (requests ++ [.tick dt])).1.running calls (r.play c (requests ++ [.tick dt])).2 ∧
    calls.filterMap Called.progressed? = r.ids c requests
  /-- Cancelling tells whether the animation was running. It takes that one away, and calls nothing. -/
  cancel : ∀ id, (((r.play c requests).1.cancel id).1 = true ↔ id ∈ r.ids c requests) ∧
    (r.play c (requests ++ [.cancel id])).1.running
      = (r.play c requests).1.running.filter (·.id != id) ∧
    (r.play c (requests ++ [.cancel id])).2 = (r.play c requests).2 ∧
    r.log c (requests ++ [.cancel id]) = r.log c requests
  /-- An end callback runs at most once, -/
  once : ∀ id, (r.log c requests).count (.ended id) ≤ 1
  /-- and does so if the animation has left in a tick, -/
  ended : ∀ id, (r.log c requests).count (.ended id) = 1 ↔
    r.LeftBy c requests Request.IsTick id ∧ HasCallback requests id
  /-- but not if it was cancelled. -/
  cancelled : ∀ id, r.LeftBy c requests (· = .cancel id) id → (r.log c requests).count (.ended id) = 0
  /-- Nothing of an animation is called after it has left. -/
  silent : ∀ earlier later id, requests = earlier ++ later → id < (callbacks earlier).length →
    id ∉ r.ids c earlier → ∃ new, r.log c requests = r.log c earlier ++ new ∧
      .progress id ∉ new ∧ .ended id ∉ new

/-- Animations live once: whatever their functions do, in every run their ids increase and are never used
again, each tick gives every one of them a turn, and each of them leaves once, with its end callback if it
leaves in a tick. -/
theorem animations_live_once (r : Routines C σ ω) (c : C) (requests : List (Request σ ω)) :
    LifeCycle r c requests := by
  have hlabelled := labelled_record r c requests
  have hcount := count_ended_log r c requests
  have hnext : (r.play c requests).1.nextId = (callbacks requests).length := by
    rw [play_eq]
    exact hlabelled.nextId
  -- the fields in their order; ids, adding and ticks are above, the rest counts calls
  refine ⟨play_eq r c requests, ?_, fun _ _ => hnext, fun id => lt_of_mem_ids, ?_, ?_, ?_, ?_, ?_, ?_, ?_⟩
  · rw [ids_eq]
    exact List.pairwise_map.2 hlabelled.increasing
  · intro duration state callback
    refine ⟨?_, ?_, log_concat r c requests (by simp)⟩
    · rw [play_concat, ← hnext]
      rfl
    · rw [play_concat]
      rfl
  · intro dt
    obtain ⟨calls, hcalls, hturns⟩ := turns_tick r c requests dt
    exact ⟨calls, hcalls, hturns, hturns.progressed⟩
  · intro id
    refine ⟨?_, ?_, ?_, log_concat r c requests (by simp)⟩
    · simp [AnimationSet.cancel, ids]
    · rw [play_concat]
      rfl
    · rw [play_concat]
      rfl
  · intro id
    by_cases hended : r.Ended c requests id
    · have hone := (hcount id).1 hended
      omega
    · have hnone := (hcount id).2 hended
      omega
  · intro id
    refine ⟨fun hone => ?_, (hcount id).1⟩
    by_cases hended : r.Ended c requests id
    · exact hended
    · rw [(hcount id).2 hended] at hone
      cases hone
  · intro id hleft
    refine (hcount id).2 fun hended => ?_
    obtain ⟨q, rfl, htick⟩ := hleft.once hended.1
    exact htick
  · rintro earlier later id rfl hlt hout
    exact (gone r hlt hout later).2

end Routines

end LiveGraph
