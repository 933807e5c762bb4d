import LiveGraph.Animation

/-!
# Turns of animations

A tick gives each animation a turn, in order. The turn of one animation is a tick of it alone, on the
context that the animations before it have left.
-/

namespace LiveGraph

/-- Effects of two sorts on one context. -/
def Choreography.sum {C κ κ' : Type} (ch : Choreography C κ) (ch' : Choreography C κ') :
    Choreography C (κ ⊕ κ') where
  progress
    | .inl e, c, time =>
      let (goesOn, e, c) := ch.progress e c time
      (goesOn, .inl e, c)
    | .inr e, c, time =>
      let (goesOn, e, c) := ch'.progress e c time
      (goesOn, .inr e, c)
  finish
    | .inl e, c => ch.finish e c
    | .inr e, c => ch'.finish e c

theorem Choreography.progress_inl {C κ κ' : Type} {ch : Choreography C κ} {e e' : κ} {c c' : C}
    {time : Double} {goesOn : Bool} (h : ch.progress e c time = (goesOn, e', c'))
    (ch' : Choreography C κ') : (ch.sum ch').progress (.inl e) c time = (goesOn, .inl e', c') := by
  simp only [sum, h]

/-- The animation with its effect seen as another one. -/
def Animation.map {κ κ' : Type} (f : κ → κ') (a : Animation κ) : Animation κ' :=
  { id := a.id, elapsed := a.elapsed, duration := a.duration, effect := f a.effect }

namespace AnimationSet

variable {C κ : Type} (ch : Choreography C κ) (dt : Double)

/-- The first animation makes progress and then ends or stays, and the others go on from there. -/
theorem advance_of_progress {a : Animation κ} {c c' : C} {goesOn : Bool} {effect : κ}
    (h : ch.progress a.effect c ((dt + a.elapsed).min a.duration) = (goesOn, effect, c'))
    (rest : List (Animation κ)) :
    advance ch dt (a :: rest) c
      = if a.duration.lt (dt + a.elapsed) || !goesOn then advance ch dt rest (ch.finish effect c')
        else ({ a with elapsed := dt + a.elapsed, effect } :: (advance ch dt rest c').1,
          (advance ch dt rest c').2) := by
  simp only [advance, h]

/-- The first animation has its turn before the others. -/
theorem advance_cons (a : Animation κ) (rest : List (Animation κ)) (c : C) :
    advance ch dt (a :: rest) c
      = ((advance ch dt [a] c).1 ++ (advance ch dt rest (advance ch dt [a] c).2).1,
        (advance ch dt rest (advance ch dt [a] c).2).2) := by
  have hturn := advance_of_progress ch dt (a := a) (c := c) rfl
  rw [hturn rest, hturn []]
  split
  · rfl
  · rfl

/-- Two lists of animations are advanced one after the other. -/
theorem advance_append (xs ys : List (Animation κ)) (c : C) :
    advance ch dt (xs ++ ys) c
      = ((advance ch dt xs c).1 ++ (advance ch dt ys (advance ch dt xs c).2).1,
        (advance ch dt ys (advance ch dt xs c).2).2) := by
  induction xs generalizing c with
  | nil => rfl
  | cons a xs ih =>
    rw [List.cons_append, advance_cons ch dt a (xs ++ ys), ih, advance_cons ch dt a xs,
      List.append_assoc]

/-- Effects that do the same as others play as they do. -/
theorem advance_map {κ' : Type} {ch : Choreography C κ} {ch' : Choreography C κ'} {f : κ → κ'}
    (hprogress : ∀ e c time, ch'.progress (f e) c time
      = ((ch.progress e c time).1, f (ch.progress e c time).2.1, (ch.progress e c time).2.2))
    (hfinish : ∀ e c, ch'.finish (f e) c = ch.finish e c) (dt : Double) (as : List (Animation κ)) (c : C) :
    advance ch' dt (as.map (·.map f)) c
      = ((advance ch dt as c).1.map (·.map f), (advance ch dt as c).2) := by
  induction as generalizing c with
  | nil => rfl
  | cons a as ih =>
    have hturn := advance_of_progress ch dt (a := a) (c := c) rfl as
    have hturn' := advance_of_progress ch' dt (a := a.map f) (hprogress a.effect c _) (as.map (·.map f))
    rw [List.map_cons, hturn, hturn', hfinish, ih, ih]
    cases hends : a.duration.lt (dt + a.elapsed)
        || !(ch.progress a.effect c ((dt + a.elapsed).min a.duration)).1 with
    | true => exact if_pos hends
    | false => exact if_neg (Bool.eq_false_iff.1 hends)

/-- An animation that still runs after a tick is what one has become in its turn. -/
theorem mem_advance {as : List (Animation κ)} {c : C} {b : Animation κ}
    (hb : b ∈ (advance ch dt as c).1) :
    ∃ earlier a rest, as = earlier ++ a :: rest ∧
      b ∈ (advance ch dt [a] (advance ch dt earlier c).2).1 := by
  induction as generalizing c with
  | nil => exact absurd hb List.not_mem_nil
  | cons x as ih =>
    rw [advance_cons, List.mem_append] at hb
    rcases hb with hfirst | hlater
    · exact ⟨[], x, as, rfl, hfirst⟩
    · obtain ⟨earlier, a, rest, rfl, hturn⟩ := ih hlater
      refine ⟨x :: earlier, a, rest, rfl, ?_⟩
      rw [advance_cons ch dt x earlier]
      exact hturn

/-- Those that still run after a tick are in their old order. -/
theorem ids_advance_sublist (as : List (Animation κ)) (c : C) :
    ((advance ch dt as c).1.map (·.id)).Sublist (as.map (·.id)) := by
  induction as generalizing c with
  | nil => exact .slnil
  | cons a as ih =>
    rw [advance_of_progress ch dt rfl as]
    split
    · exact (ih _).cons _
    · exact (ih _).cons_cons _

/-- In its turn an animation keeps its id, and gets the effect that its progress leaves. -/
theorem mem_advance_singleton {a b : Animation κ} {c : C} (hb : b ∈ (advance ch dt [a] c).1) :
    b.id = a.id ∧ ∃ time, b.effect = (ch.progress a.effect c time).2.1 := by
  rw [advance_of_progress ch dt rfl []] at hb
  split at hb
  · exact absurd hb List.not_mem_nil
  · rw [List.mem_singleton.1 hb]
    exact ⟨rfl, _, rfl⟩

end AnimationSet

end LiveGraph
