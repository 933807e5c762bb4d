import LiveGraph.Edit

/-!
# Reasoning about edits

An edit is taken apart at its binds. `Edit.answer?` is what it answers, `Edit.after` what it leaves,
whether it answers or fails, and `Edit.Preserves` says that a property of the edited value and the
events published so far outlasts the edit.
-/

namespace LiveGraph

namespace Edit

variable {ε σ α β : Type}

/-- After an edit that succeeds, the next one starts where it has led, with its answer. -/
theorem bind_of_ok {x : Edit ε σ α} {f : α → Edit ε σ β} {t t' : Tracked σ} {a : α}
    (h : x t = .ok a t') : (x >>= f) t = f a t' := by
  show EStateM.bind x f t = f a t'
  rw [EStateM.bind, h]

/-- An edit that fails is the end. -/
theorem bind_of_error {x : Edit ε σ α} {f : α → Edit ε σ β} {t t' : Tracked σ} {e : ε}
    (h : x t = .error e t') : (x >>= f) t = .error e t' := by
  show EStateM.bind x f t = .error e t'
  rw [EStateM.bind, h]

theorem read_bind (f : σ → Edit ε σ β) (t : Tracked σ) : (read >>= f) t = f t.value t := rfl

/-- The first edit of a list answers, and the others go on from there. -/
theorem forM_cons_of_ok {f : β → Edit ε σ Unit} {b : β} {bs : List β} {t t' : Tracked σ}
    (h : f b t = .ok () t') : (b :: bs).forM f t = bs.forM f t' :=
  bind_of_ok h

/-- The edits of a list answer, and those of a second list go on from there. -/
theorem forM_append_of_ok {f : β → Edit ε σ Unit} {bs cs : List β} {t t' : Tracked σ}
    (h : bs.forM f t = .ok () t') : (bs ++ cs).forM f t = cs.forM f t' := by
  induction bs generalizing t with
  | nil =>
    cases h
    rfl
  | cons b bs ih =>
    -- no edit of the first list fails, so the induction goes on behind it
    cases hb : f b t with
    | ok u t₁ =>
      have htail : (b :: bs).forM f t = bs.forM f t₁ := forM_cons_of_ok hb
      rw [htail] at h
      have hcons : (b :: (bs ++ cs)).forM f t = (bs ++ cs).forM f t₁ := forM_cons_of_ok hb
      rw [List.cons_append, hcons, ih h]
    | error e t₁ =>
      have hfail : (b :: bs).forM f t = .error e t₁ := bind_of_error hb
      rw [hfail] at h
      cases h

/-- The events of a list are published one after the other. -/
theorem forM_publish (events : List Event) (t : Tracked σ) :
    (events.forM publish : Edit ε σ Unit) t = .ok () ⟨t.value, t.events ++ events.toArray⟩ := by
  induction events generalizing t with
  | nil => simp [Pure.pure, EStateM.pure]
  | cons e events ih =>
    have hpublish : (publish e : Edit ε σ Unit) t = .ok () ⟨t.value, t.events.push e⟩ := rfl
    rw [forM_cons_of_ok hpublish, ih]
    simp

/-- What an edit leaves, also when it fails. -/
def after (x : Edit ε σ α) (t : Tracked σ) : Tracked σ :=
  match x t with
  | .ok _ t' => t'
  | .error _ t' => t'

/-- The state that a successful edit leaves. -/
theorem after_of_ok {x : Edit ε σ α} {t t' : Tracked σ} {a : α} (h : x t = .ok a t') :
    x.after t = t' := by
  rw [after, h]

/-- The state that a failed edit leaves. -/
theorem after_of_error {x : Edit ε σ α} {t t' : Tracked σ} {e : ε} (h : x t = .error e t') :
    x.after t = t' := by
  rw [after, h]

/-- An edit whose answer is dropped leaves the same. -/
theorem after_discard (x : Edit ε σ α) (t : Tracked σ) : (discard x).after t = x.after t := by
  have hmap : (discard x) t = EStateM.map (fun _ => ()) x t := rfl
  rw [after, hmap, EStateM.map, after]
  cases x t with
  | ok a t' => rfl
  | error e t' => rfl

/-- Ignoring the answer keeps what an edit does. -/
theorem discard_of_ok {x : Edit ε σ α} {t t' : Tracked σ} {a : α} (h : x t = .ok a t') :
    (discard x) t = .ok () t' := by
  show EStateM.map (fun _ => ()) x t = .ok () t'
  rw [EStateM.map, h]

/-- Ignoring the answer keeps how an edit fails. -/
theorem discard_of_error {x : Edit ε σ α} {t t' : Tracked σ} {e : ε} (h : x t = .error e t') :
    (discard x) t = .error e t' := by
  show EStateM.map (fun _ => ()) x t = .error e t'
  rw [EStateM.map, h]

/-- What an edit answers, unless it fails. -/
def answer? (x : Edit ε σ α) (t : Tracked σ) : Option α :=
  match x t with
  | .ok a _ => some a
  | .error _ _ => none

/-- What is performed is what the edit leaves of a value of which nothing was published. -/
theorem perform_snd (x : Edit ε σ α) (value : σ) :
    (x.perform value).2 = ((x.after ⟨value, #[]⟩).value, (x.after ⟨value, #[]⟩).events) := by
  rw [perform, after]
  cases x ⟨value, #[]⟩ with
  | ok a t => rfl
  | error e t => rfl

/-- What an edit gives when it is performed on a value. -/
theorem perform_of_ok {x : Edit ε σ α} {value : σ} {a : α} {t : Tracked σ}
    (h : x ⟨value, #[]⟩ = .ok a t) : x.perform value = (.ok a, t.value, t.events) := by
  rw [perform, h]

/-- A successful edit has an answer. -/
theorem answer?_of_ok {x : Edit ε σ α} {t t' : Tracked σ} {a : α} (h : x t = .ok a t') :
    x.answer? t = some a := by
  rw [answer?, h]

theorem answer?_of_error {x : Edit ε σ α} {t t' : Tracked σ} {e : ε} (h : x t = .error e t') :
    x.answer? t = none := by
  rw [answer?, h]

/-- Without its answer, an edit succeeds for the same states. -/
theorem answer?_discard (x : Edit ε σ α) (t : Tracked σ) :
    (discard x).answer? t = (x.answer? t).map fun _ => () := by
  have hmap : (discard x) t = EStateM.map (fun _ => ()) x t := rfl
  rw [answer?, hmap, EStateM.map, answer?]
  cases x t with
  | ok a t' => rfl
  | error e t' => rfl

/-- What holds of the value and the events before the edit holds after it. -/
def Preserves (P : Tracked σ → Prop) (x : Edit ε σ α) : Prop := ∀ t, P t → P (x.after t)

namespace Preserves

variable {P : Tracked σ → Prop}

/-- Two edits that keep an invariant keep it one after the other. -/
theorem bind {x : Edit ε σ α} {f : α → Edit ε σ β} (hx : Preserves P x)
    (hf : ∀ a, Preserves P (f a)) : Preserves P (x >>= f) := by
  intro t ht
  have hxt := hx t ht
  cases h : x t with
  | ok a t' =>
    rw [after_of_ok h] at hxt
    have hft := hf a t' hxt
    rw [after, bind_of_ok h]
    exact hft
  | error e t' =>
    rw [after_of_error h] at hxt
    rw [after_of_error (bind_of_error h)]
    exact hxt

theorem pure (a : α) : Preserves P (Pure.pure a : Edit ε σ α) := fun _ ht => ht

theorem throw (e : ε) : Preserves P (MonadExcept.throw e : Edit ε σ α) := fun _ ht => ht

theorem read : Preserves P (Edit.read : Edit ε σ σ) := fun _ ht => ht

/-- An edit keeps an invariant if it does so in both branches. -/
theorem ite {c : Prop} [Decidable c] {x y : Edit ε σ α} (hx : Preserves P x)
    (hy : Preserves P y) : Preserves P (if c then x else y) := by
  split
  · exact hx
  · exact hy

/-- A change keeps an invariant if it does so from every state. -/
theorem change {f : σ → σ} (hf : ∀ t, P t → P ⟨f t.value, t.events⟩) :
    Preserves P (Edit.change f : Edit ε σ Unit) := hf

theorem ofExcept (x : Except ε α) : Preserves P (Edit.ofExcept x : Edit ε σ α) := by
  intro t ht
  cases x with
  | ok a => exact ht
  | error e => exact ht

/-- A loop keeps what the edit of each member keeps. -/
theorem forM_mem {f : β → Edit ε σ Unit} {bs : List β} (hf : ∀ b ∈ bs, Preserves P (f b)) :
    Preserves P (bs.forM f) := by
  induction bs with
  | nil => exact pure ()
  | cons b bs ih =>
    exact bind (hf b List.mem_cons_self) fun _ => ih fun a ha => hf a (List.mem_cons_of_mem b ha)

theorem forM {f : β → Edit ε σ Unit} (hf : ∀ b, Preserves P (f b)) (bs : List β) :
    Preserves P (bs.forM f) := forM_mem fun b _ => hf b

end Preserves

end Edit

end LiveGraph
