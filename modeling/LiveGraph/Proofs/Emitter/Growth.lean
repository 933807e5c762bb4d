import LiveGraph.Proofs.Bytes
import LiveGraph.Proofs.Emitter.Route

/-!
# Growth of a network of emitters

A network is built and used by operations, in any order. Operations only ever add to a network: handles
keep standing for their emitters, observers stay in their places, and an emitter that has a sink keeps it.
If forwards do not lead back at the end, they never did.

Handles and forwards always lead to emitters, and each receiver is fed by one emitter at most. What handles
stand for and which observers an emitter has can be read off the operations alone (`Directory`).
-/

namespace LiveGraph

variable {α : Type}

namespace Network

/-- The receiver with a number. -/
def receiver (n : Network α) (r : Nat) : Receiver α := n.receivers.getD r {}

/-- What can be done with a network. -/
inductive Operation (α : Type)
  | new
  | clone (handle : Nat)
  | listen (handle : Nat) (label : String)
  | forward (handle target : Nat) (f : α → α)
  | map (handle : Nat) (f : α → α)
  /-- Registers a listener as the sink. -/
  | sink (handle : Nat) (label : String)
  /-- Registers a new receiver's queue as the sink. -/
  | attach (handle : Nat)
  | emit (handle : Nat) (v : α)
  /-- Emits a value that is only lent, so that `copy` makes a value of its own for the sink. -/
  | emitLent (copy : α → α) (handle : Nat) (v : α)
  | drain (receiver : Nat)
  | dropReceiver (receiver : Nat)

namespace Operation

/-- The network after an operation, also where it is rejected. -/
def perform (n : Network α) : Operation α → Network α
  | new => n.new.2
  | clone handle => (n.clone handle).2
  | listen handle label => n.listen handle label
  | forward handle target f => n.forward handle target f
  | map handle f => (n.map handle f).2
  | sink handle label => (n.setSink handle (.listener label)).toOption.getD n
  | attach handle => ((n.attach handle).toOption.map (·.2)).getD n
  | emit handle v => (n.emit handle v).2
  | emitLent copy handle v => (n.emitLent copy handle v).2
  | drain receiver => ((n.drain receiver).map (·.2)).getD n
  | dropReceiver receiver => n.dropReceiver receiver

/-- The handles that an operation goes through. -/
def handles : Operation α → List Nat
  | new | drain _ | dropReceiver _ => []
  | forward handle target _ => [handle, target]
  | clone handle | listen handle _ | map handle _ | sink handle _ | attach handle | emit handle _
  | emitLent _ handle _ => [handle]

/-- Copies are like what they are copies of. -/
def Faithful : Operation α → Prop
  | emitLent copy _ v => copy v = v
  | _ => True

/-- An operation goes through handles that were handed out, and copies faithfully. -/
def Fits (n : Network α) (op : Operation α) : Prop :=
  (∀ h ∈ op.handles, h < n.handles.size) ∧ op.Faithful

instance [DecidableEq α] : (op : Operation α) → Decidable op.Faithful
  | emitLent copy _ v => inferInstanceAs (Decidable (copy v = v))
  | new | clone _ | listen _ _ | forward _ _ _ | map _ _ | sink _ _ | attach _ | emit _ _ | drain _
  | dropReceiver _ => .isTrue trivial

instance [DecidableEq α] (n : Network α) (op : Operation α) : Decidable (op.Fits n) :=
  inferInstanceAs (Decidable (_ ∧ _))

end Operation

/-- The network after some operations. -/
def run (n : Network α) (ops : List (Operation α)) : Network α := ops.foldl Operation.perform n

/-- Each operation fits when its turn comes. -/
def Fits (n : Network α) : List (Operation α) → Prop
  | [] => True
  | op :: ops => op.Fits n ∧ Fits (op.perform n) ops

instance decidableFits [DecidableEq α] (n : Network α) :
    (ops : List (Operation α)) → Decidable (n.Fits ops)
  | [] => .isTrue trivial
  | op :: ops =>
    have := decidableFits (op.perform n) ops
    inferInstanceAs (Decidable (_ ∧ _))

/-! ## What operations do to the subscriptions -/

/-- A new emitter has no subscriptions, as an emitter that is not there has none. -/
theorem subscriptions_new (n : Network α) (i : Nat) : n.new.2.subscriptions i = n.subscriptions i := by
  show (n.emitters.push {}).getD i {} = n.emitters.getD i {}
  rw [getD_push]
  split
  · rename_i hi
    exact (subscriptions_of_le (Nat.le_of_eq hi.symm)).symm
  · rfl

/-- A change through a handle is a change of the one emitter that it stands for. -/
theorem subscriptions_modifyEmitter {n : Network α} {handle : Nat}
    (h : n.emitterOf handle < n.emitters.size) (f : Emitter α → Emitter α) (i : Nat) :
    (n.modifyEmitter handle f).subscriptions i
      = if i = n.emitterOf handle then f (n.subscriptions i) else n.subscriptions i := by
  show (n.emitters.modify _ f).getD i {} = _
  rw [getD_modify]
  by_cases hi : i = n.emitterOf handle
  · rw [if_pos ⟨hi.symm, hi ▸ h⟩, if_pos hi]
    rfl
  · rw [if_neg fun hc => hi hc.1.symm, if_neg hi]
    rfl

/-- The network with a further receiver, which no sink feeds yet. -/
def addReceiver (n : Network α) : Network α := { n with receivers := n.receivers.push {} }

section Registration

variable {n : Network α} {handle : Nat}

/-- An emitter has one sink at most. -/
theorem setSink_of_some {s : Sink} (h : (n.emitter handle).sink = some s) (t : Sink) :
    n.setSink handle t = .error .sinkTaken := by
  unfold setSink
  rw [h]
  rfl

/-- A free place for a sink is taken. -/
theorem setSink_of_none (h : (n.emitter handle).sink = none) (s : Sink) :
    n.setSink handle s = .ok (n.modifyEmitter handle ({ · with sink := some s })) := by
  unfold setSink
  rw [h]
  rfl

theorem attach_of_some {s : Sink} (h : (n.emitter handle).sink = some s) :
    n.attach handle = .error .sinkTaken := by
  unfold attach
  rw [setSink_of_some h]
  rfl

/-- A receiver is attached as the sink of an emitter, with the next number. -/
theorem attach_of_none (h : (n.emitter handle).sink = none) :
    n.attach handle = .ok (n.receivers.size,
      n.addReceiver.modifyEmitter handle ({ · with sink := some (.queue n.receivers.size) })) := by
  unfold attach
  rw [setSink_of_none h]
  rfl

/-- A refused sink leaves the network. -/
theorem perform_sink_of_some {s : Sink} (h : (n.emitter handle).sink = some s) (label : String) :
    Operation.perform n (.sink handle label) = n := by
  show (n.setSink handle _).toOption.getD n = n
  rw [setSink_of_some h]
  rfl

theorem perform_sink_of_none (h : (n.emitter handle).sink = none) (label : String) :
    Operation.perform n (.sink handle label)
      = n.modifyEmitter handle ({ · with sink := some (.listener label) }) := by
  show (n.setSink handle _).toOption.getD n = _
  rw [setSink_of_none h]
  rfl

/-- A refused receiver is not kept. -/
theorem perform_attach_of_some {s : Sink} (h : (n.emitter handle).sink = some s) :
    Operation.perform n (.attach handle) = n := by
  show ((n.attach handle).toOption.map _).getD n = n
  rw [attach_of_some h]
  rfl

theorem perform_attach_of_none (h : (n.emitter handle).sink = none) :
    Operation.perform n (.attach handle)
      = n.addReceiver.modifyEmitter handle ({ · with sink := some (.queue n.receivers.size) }) := by
  show ((n.attach handle).toOption.map _).getD n = _
  rw [attach_of_none h]
  rfl

end Registration

section Draining

variable {n : Network α} {r : Nat}

theorem drain_of_dropped (h : (n.receiver r).dropped = true) : n.drain r = none := if_pos h

theorem drain_of_live (h : (n.receiver r).dropped = false) :
    n.drain r = some ((n.receiver r).queued,
      { n with receivers := n.receivers.modify r ({ · with queued := #[] }) }) :=
  if_neg (Bool.eq_false_iff.1 h)

/-- A receiver that is gone has nothing to hand over. -/
theorem perform_drain_of_dropped (h : (n.receiver r).dropped = true) :
    Operation.perform n (.drain r) = n := by
  show ((n.drain r).map _).getD n = n
  rw [drain_of_dropped h]
  rfl

/-- Draining empties the queue of one receiver. -/
theorem perform_drain_of_live (h : (n.receiver r).dropped = false) :
    Operation.perform n (.drain r)
      = { n with receivers := n.receivers.modify r ({ · with queued := #[] }) } := by
  show ((n.drain r).map _).getD n = _
  rw [drain_of_live h]
  rfl

end Draining

/-! ## Networks only grow -/

/-- The second network came from the first by operations: what there was is still there. -/
structure Extends (n n' : Network α) : Prop where
  handles : n.handles.size ≤ n'.handles.size
  receivers : n.receivers.size ≤ n'.receivers.size
  emitterOf : ∀ h < n.handles.size, n'.emitterOf h = n.emitterOf h
  observers : ∀ i, (n.subscriptions i).observers <+: (n'.subscriptions i).observers
  sink : ∀ i s, (n.subscriptions i).sink = some s → (n'.subscriptions i).sink = some s

theorem Extends.refl (n : Network α) : n.Extends n :=
  ⟨Nat.le_refl _, Nat.le_refl _, fun _ _ => rfl, fun _ => List.prefix_rfl, fun _ _ h => h⟩

theorem Extends.trans {n n' n'' : Network α} (h : n.Extends n') (h' : n'.Extends n'') :
    n.Extends n'' where
  handles := Nat.le_trans h.handles h'.handles
  receivers := Nat.le_trans h.receivers h'.receivers
  emitterOf x hx := by rw [h'.emitterOf x (Nat.lt_of_lt_of_le hx h.handles), h.emitterOf x hx]
  observers i := (h.observers i).trans (h'.observers i)
  sink i s hs := h'.sink i s (h.sink i s hs)

/-- A further handle for one of the emitters, or for one that is still to come. -/
theorem emitterOf_push (n : Network α) {handle : Nat} (h : handle < n.handles.size) (i : Nat)
    (emitters : Array (Emitter α)) :
    ({ n with emitters, handles := n.handles.push i } : Network α).emitterOf handle
      = n.emitterOf handle := by
  show (n.handles.push i).getD handle 0 = n.handles.getD handle 0
  rw [getD_push, if_neg (by omega)]

/-- A new emitter and its handle come behind those that are there. -/
theorem extends_new (n : Network α) : n.Extends n.new.2 where
  handles := by simp [new]
  receivers := Nat.le_refl _
  emitterOf h hh := emitterOf_push n hh _ _
  observers i := (subscriptions_new n i).symm ▸ List.prefix_rfl
  sink i s hs := by rw [subscriptions_new, hs]

/-- A cloned handle comes behind those that are there. -/
theorem extends_clone (n : Network α) (handle : Nat) : n.Extends (n.clone handle).2 where
  handles := by simp [clone]
  receivers := Nat.le_refl _
  emitterOf h hh := emitterOf_push n hh _ _
  observers _ := List.prefix_rfl
  sink _ _ hs := hs

/-- A network grows by a change of one emitter that keeps its observers in front and its sink. -/
theorem extends_modifyEmitter {n : Network α} {handle : Nat} (h : n.emitterOf handle < n.emitters.size)
    {f : Emitter α → Emitter α} (hobservers : ∀ e, e.observers <+: (f e).observers)
    (hsink : ∀ s, (n.emitter handle).sink = some s → (f (n.emitter handle)).sink = some s) :
    n.Extends (n.modifyEmitter handle f) where
  handles := Nat.le_refl _
  receivers := Nat.le_refl _
  emitterOf _ _ := rfl
  observers i := by
    rw [subscriptions_modifyEmitter h]
    split
    · exact hobservers _
    · exact List.prefix_rfl
  sink i s hs := by
    rw [subscriptions_modifyEmitter h]
    split
    · rename_i hi
      subst hi
      exact hsink s hs
    · exact hs

/-- An observer comes behind those that are there. -/
theorem extends_observe {n : Network α} {handle : Nat} (h : n.emitterOf handle < n.emitters.size)
    (o : Observer α) : n.Extends (n.observe handle o) :=
  extends_modifyEmitter h (fun e => List.prefix_append e.observers [o]) fun _ hs => hs

/-- A sink takes a free place only. -/
theorem extends_modifySink {n : Network α} {handle : Nat} (h : n.emitterOf handle < n.emitters.size)
    (hnone : (n.emitter handle).sink = none) (s : Sink) :
    n.Extends (n.modifyEmitter handle ({ · with sink := some s })) := by
  refine extends_modifyEmitter h (fun _ => List.prefix_rfl) fun t ht => ?_
  -- there was no sink that could be lost
  rw [hnone] at ht
  cases ht

/-! ## Sound networks -/

/-- Handles and forwards lead to emitters, and each receiver is fed by one emitter at most. -/
structure Sound (n : Network α) : Prop where
  handle : ∀ h < n.handles.size, n.emitterOf h < n.emitters.size
  closed : n.Closed
  queue : ∀ i r, (n.subscriptions i).sink = some (.queue r) → r < n.receivers.size
  unique : ∀ i j r, (n.subscriptions i).sink = some (.queue r) →
    (n.subscriptions j).sink = some (.queue r) → i = j

/-- Without emitters there is nothing to be out of bounds. -/
theorem sound_empty : ({} : Network α).Sound := by
  have hnone : ∀ i, ({} : Network α).subscriptions i = {} := fun _ => rfl
  refine ⟨fun h hh => absurd hh (Nat.not_lt_zero h), ?_, ?_, ?_⟩
  · rintro i j ⟨f, hf⟩
    rw [hnone] at hf
    cases hf
  · intro i r hs
    rw [hnone] at hs
    cases hs
  · intro i j r hs
    rw [hnone] at hs
    cases hs

/-- A new emitter is known by one handle, and nobody forwards to it yet. -/
theorem Sound.new {n : Network α} (h : n.Sound) : n.new.2.Sound where
  handle x hx := by
    have hsize : n.new.2.emitters.size = n.emitters.size + 1 := Array.size_push _
    have hhandles : n.new.2.handles.size = n.handles.size + 1 := Array.size_push _
    have hx' : n.new.2.emitterOf x = if x = n.handles.size then n.emitters.size else n.emitterOf x :=
      getD_push n.handles _ x 0
    rw [hx', hsize]
    -- the new handle stands for the new emitter
    split
    · omega
    · have := h.handle x (by omega)
      omega
  closed i j := by
    have hsize : n.new.2.emitters.size = n.emitters.size + 1 := Array.size_push _
    unfold Forwards
    rw [subscriptions_new, hsize]
    exact fun hj => Nat.lt_succ_of_lt (h.closed i j hj)
  queue i r := by
    rw [subscriptions_new]
    exact h.queue i r
  unique i j r := by
    rw [subscriptions_new, subscriptions_new]
    exact h.unique i j r

theorem Sound.clone {n : Network α} (h : n.Sound) {handle : Nat} (hhandle : handle < n.handles.size) :
    (n.clone handle).2.Sound where
  handle x hx := by
    have hhandles : (n.clone handle).2.handles.size = n.handles.size + 1 := Array.size_push _
    have hx' : (n.clone handle).2.emitterOf x
        = if x = n.handles.size then n.emitterOf handle else n.emitterOf x :=
      getD_push n.handles _ x 0
    rw [hx']
    split
    · exact h.handle handle hhandle
    · exact h.handle x (by omega)
  closed := h.closed
  queue := h.queue
  unique := h.unique

/-- An observer may be added that forwards to an emitter of the network. -/
theorem Sound.observe {n : Network α} (h : n.Sound) {handle : Nat} (hhandle : handle < n.handles.size)
    {o : Observer α} (ho : ∀ j f, o = .forward j f → j < n.emitters.size) :
    (n.observe handle o).Sound := by
  have hsize : (n.observe handle o).emitters.size = n.emitters.size := Array.size_modify
  have hsubscriptions := fun i => subscriptions_modifyEmitter (h.handle handle hhandle)
    (fun e => { e with observers := e.observers ++ [o] }) i
  -- sinks are not touched, so the conditions on receivers carry over
  have hsink : ∀ i, ((n.observe handle o).subscriptions i).sink = (n.subscriptions i).sink := by
    intro i
    unfold Network.observe
    rw [hsubscriptions i]
    split <;> rfl
  refine ⟨fun x hx => ?_, ?_, fun i r => ?_, fun i j r => ?_⟩
  · rw [hsize]
    exact h.handle x hx
  · rintro i j ⟨f, hf⟩
    rw [hsize]
    unfold Network.observe at hf
    rw [hsubscriptions i] at hf
    split at hf
    · -- no forward is new but the observer itself
      rcases List.mem_append.1 hf with hf | hf
      · exact h.closed i j ⟨f, hf⟩
      · exact ho j f (List.mem_singleton.1 hf).symm
    · exact h.closed i j ⟨f, hf⟩
  · rw [hsink]
    exact h.queue i r
  · rw [hsink, hsink]
    exact h.unique i j r

/-- A receiver that feeds on a sink must be there, and feed on no other. -/
theorem Sound.modifySink {n : Network α} (h : n.Sound) {handle : Nat} (hhandle : handle < n.handles.size)
    {s : Sink} (hs : ∀ r, s = .queue r →
      r < n.receivers.size ∧ ∀ i, (n.subscriptions i).sink ≠ some (.queue r)) :
    (n.modifyEmitter handle ({ · with sink := some s })).Sound := by
  have hsize : (n.modifyEmitter handle ({ · with sink := some s })).emitters.size
      = n.emitters.size := Array.size_modify
  have hsubscriptions := fun i => subscriptions_modifyEmitter (h.handle handle hhandle)
    ({ · with sink := some s }) i
  refine ⟨fun x hx => ?_, ?_, fun i r hq => ?_, fun i j r hi hj => ?_⟩
  · rw [hsize]
    exact h.handle x hx
  · rintro i j ⟨f, hf⟩
    rw [hsize]
    rw [hsubscriptions i] at hf
    split at hf
    · exact h.closed i j ⟨f, hf⟩
    · exact h.closed i j ⟨f, hf⟩
  · rw [hsubscriptions i] at hq
    split at hq
    · exact (hs r (Option.some.inj hq)).1
    · exact h.queue i r hq
  · -- the new sink feeds a receiver that no other sink fed
    rw [hsubscriptions] at hi hj
    split at hi
    · split at hj
      · omega
      · exact absurd hj ((hs r (Option.some.inj hi)).2 j)
    · split at hj
      · exact absurd hi ((hs r (Option.some.inj hj)).2 i)
      · exact h.unique i j r hi hj

/-- Whatever happens to receivers, as long as none of them vanishes. -/
theorem Sound.receivers {n : Network α} (h : n.Sound) {receivers : Array (Receiver α)}
    (hsize : n.receivers.size ≤ receivers.size) :
    n.Extends { n with receivers } ∧ ({ n with receivers } : Network α).Sound :=
  ⟨⟨Nat.le_refl _, hsize, fun _ _ => rfl, fun _ => List.prefix_rfl, fun _ _ hs => hs⟩,
    ⟨h.handle, h.closed, fun i r hs => Nat.lt_of_lt_of_le (h.queue i r hs) hsize, h.unique⟩⟩

/-! ## Steps and runs -/

theorem size_receive (receivers : Array (Receiver α)) (d : Delivery α) :
    (receive receivers d).size = receivers.size := by
  cases d with
  | listener label v => rfl
  | queue i v => exact Array.size_modify

/-- Deliveries make no receivers. -/
theorem size_foldl_receive (ds : List (Delivery α)) (receivers : Array (Receiver α)) :
    (ds.foldl receive receivers).size = receivers.size := by
  induction ds generalizing receivers with
  | nil => rfl
  | cons d ds ih => rw [List.foldl_cons, ih, size_receive]

/-- What one operation does: it adds to the network, and keeps it sound. -/
theorem Sound.perform {n : Network α} (h : n.Sound) {op : Operation α} (hop : op.Fits n) :
    n.Extends (op.perform n) ∧ (op.perform n).Sound := by
  cases op with
  | new => exact ⟨extends_new n, h.new⟩
  | clone handle => exact ⟨extends_clone n handle, h.clone (hop.1 handle List.mem_cons_self)⟩
  | listen handle label =>
    have hhandle := hop.1 handle List.mem_cons_self
    refine ⟨extends_observe (h.handle handle hhandle) _, h.observe hhandle fun j f ho => ?_⟩
    cases ho
  | forward handle target f =>
    have hhandle := hop.1 handle List.mem_cons_self
    have htarget := hop.1 target (List.mem_cons_of_mem _ List.mem_cons_self)
    refine ⟨extends_observe (h.handle handle hhandle) _, h.observe hhandle fun j f' ho => ?_⟩
    cases ho
    exact h.handle target htarget
  | map handle f =>
    -- the derived emitter comes first, and then the forward to it
    have hhandle := Nat.lt_of_lt_of_le (hop.1 handle List.mem_cons_self) (extends_new n).handles
    have hderived : n.handles.size < n.new.2.handles.size := by simp [Network.new]
    refine ⟨(extends_new n).trans (extends_observe (h.new.handle handle hhandle) _),
      h.new.observe hhandle fun j f' ho => ?_⟩
    cases ho
    exact h.new.handle _ hderived
  | sink handle label =>
    have hhandle := hop.1 handle List.mem_cons_self
    cases hsink : (n.emitter handle).sink with
    | some s =>
      rw [perform_sink_of_some hsink]
      exact ⟨.refl n, h⟩
    | none =>
      rw [perform_sink_of_none hsink]
      refine ⟨extends_modifySink (h.handle handle hhandle) hsink _,
        h.modifySink hhandle fun r hr => ?_⟩
      cases hr
  | attach handle =>
    have hhandle := hop.1 handle List.mem_cons_self
    cases hsink : (n.emitter handle).sink with
    | some s =>
      rw [perform_attach_of_some hsink]
      exact ⟨.refl n, h⟩
    | none =>
      rw [perform_attach_of_none hsink]
      have hsize : n.receivers.size ≤ n.addReceiver.receivers.size := by simp [addReceiver]
      obtain ⟨hextends, hsound⟩ : n.Extends n.addReceiver ∧ n.addReceiver.Sound := h.receivers hsize
      refine ⟨hextends.trans (extends_modifySink (hsound.handle handle hhandle) hsink _),
        hsound.modifySink hhandle fun r hr => ?_⟩
      -- no sink feeds a receiver that was not there yet
      cases hr
      refine ⟨by simp [addReceiver], fun i hi => ?_⟩
      have := h.queue i _ hi
      omega
  | emit handle v =>
    exact h.receivers (Nat.le_of_eq (size_foldl_receive (n.deliveries handle v) n.receivers).symm)
  | emitLent copy handle v =>
    exact h.receivers (Nat.le_of_eq (size_foldl_receive (n.deliveriesLent copy handle v) n.receivers).symm)
  | drain receiver =>
    cases hdropped : (n.receiver receiver).dropped with
    | true =>
      rw [perform_drain_of_dropped hdropped]
      exact ⟨.refl n, h⟩
    | false =>
      rw [perform_drain_of_live hdropped]
      exact h.receivers (Nat.le_of_eq Array.size_modify.symm)
  | dropReceiver receiver => exact h.receivers (Nat.le_of_eq Array.size_modify.symm)

/-- Operations can be run in two parts. -/
theorem run_append (n : Network α) (ops ops' : List (Operation α)) :
    n.run (ops ++ ops') = (n.run ops).run ops' := List.foldl_append

/-- Operations fit in two parts, the second where the first has led. -/
theorem fits_append {n : Network α} {ops ops' : List (Operation α)} :
    n.Fits (ops ++ ops') ↔ n.Fits ops ∧ (n.run ops).Fits ops' := by
  induction ops generalizing n with
  | nil => exact ⟨fun h => ⟨trivial, h⟩, fun h => h.2⟩
  | cons op ops ih =>
    show op.Fits n ∧ Network.Fits (op.perform n) (ops ++ ops') ↔
      (op.Fits n ∧ Network.Fits (op.perform n) ops) ∧ _
    rw [ih, and_assoc]
    rfl

/-- A sound network stays sound and only grows, whatever is done with it. -/
theorem Sound.run {n : Network α} (h : n.Sound) {ops : List (Operation α)} (hops : n.Fits ops) :
    n.Extends (n.run ops) ∧ (n.run ops).Sound := by
  induction ops generalizing n with
  | nil => exact ⟨.refl n, h⟩
  | cons op ops ih =>
    obtain ⟨hextends, hsound⟩ := h.perform hops.1
    exact ⟨hextends.trans (ih hsound hops.2).1, (ih hsound hops.2).2⟩

/-- If forwards do not lead back in the end, they never did. -/
theorem Extends.acyclic {n n' : Network α} (h : n.Extends n') (hacyclic : n'.Acyclic) : n.Acyclic := by
  have hforwards : ∀ {i j}, n.Forwards i j → n'.Forwards i j := by
    rintro i j ⟨f, hf⟩
    exact ⟨f, (h.observers i).subset hf⟩
  exact fun i hi => hacyclic i (rel_of_reaches .trans (fun hij => .single (hforwards hij)) hi)

/-! ## Registrations -/

/-- The emitters that handles stand for, in the order in which the handles were handed out, and the number of
emitters. -/
structure Directory where
  owners : List Nat := []
  emitters : Nat := 0

namespace Directory

/-- The emitter that a handle stands for. -/
def owner (d : Directory) (handle : Nat) : Nat := d.owners.getD handle 0

/-- The directory after an operation: a new emitter has the next number and a handle of its own, and a clone
stands for what its original stands for. -/
def after (d : Directory) : Operation α → Directory
  | .new | .map _ _ => { owners := d.owners ++ [d.emitters], emitters := d.emitters + 1 }
  | .clone handle => { d with owners := d.owners ++ [d.owner handle] }
  | _ => d

/-- The observer that an operation registers, and before it the emitter it is registered with. -/
def registration? (d : Directory) : Operation α → Option (Nat × Observer α)
  | .listen handle label => some (d.owner handle, .listener label)
  | .forward handle target f => some (d.owner handle, .forward (d.owner target) f)
  | .map handle f => some (d.owner handle, .forward d.emitters f)
  | _ => none

/-- All that operations register, in their order. -/
def registrations (d : Directory) : List (Operation α) → List (Nat × Observer α)
  | [] => []
  | op :: ops => (d.registration? op).toList ++ registrations (d.after op) ops

/-- The observer of a registration, if it is one with the given emitter. -/
def observer? (i : Nat) (registration : Nat × Observer α) : Option (Observer α) :=
  if registration.1 = i then some registration.2 else none

/-- The observers that operations on a network without emitters register with one of its later emitters, in
their order. -/
def observers (ops : List (Operation α)) (i : Nat) : List (Observer α) :=
  (({} : Directory).registrations ops).filterMap (observer? i)

end Directory

/-- The directory is that of the network. -/
structure Listed (n : Network α) (d : Directory) : Prop where
  handles : n.handles.toList = d.owners
  emitters : n.emitters.size = d.emitters

/-- The directory knows which emitter a handle stands for. -/
theorem Listed.emitterOf {n : Network α} {d : Directory} (h : n.Listed d) (handle : Nat) :
    n.emitterOf handle = d.owner handle := by
  unfold Network.emitterOf Directory.owner
  rw [← h.handles, Array.getD_eq_getD_getElem?, List.getD_eq_getElem?_getD, Array.getElem?_toList]

theorem Listed.new {n : Network α} {d : Directory} (h : n.Listed d) :
    n.new.2.Listed { owners := d.owners ++ [d.emitters], emitters := d.emitters + 1 } where
  handles := by
    show (n.handles.push n.emitters.size).toList = _
    rw [Array.toList_push, h.handles, h.emitters]
  emitters := by
    show (n.emitters.push {}).size = _
    rw [Array.size_push, h.emitters]

/-- A clone is listed as another handle of the same emitter. -/
theorem Listed.clone {n : Network α} {d : Directory} (h : n.Listed d) (handle : Nat) :
    (n.clone handle).2.Listed { d with owners := d.owners ++ [d.owner handle] } where
  handles := by
    show (n.handles.push (n.emitterOf handle)).toList = _
    rw [Array.toList_push, h.handles, h.emitterOf]
  emitters := h.emitters

/-- Subscriptions change neither handles nor the number of emitters. -/
theorem Listed.modifyEmitter {n : Network α} {d : Directory} (h : n.Listed d) (handle : Nat)
    (f : Emitter α → Emitter α) : (n.modifyEmitter handle f).Listed d where
  handles := h.handles
  emitters := Array.size_modify.trans h.emitters

/-- An observer is added behind those that its emitter has. -/
theorem observers_observe {n : Network α} {handle : Nat} (h : n.emitterOf handle < n.emitters.size)
    (o : Observer α) (i : Nat) :
    ((n.observe handle o).subscriptions i).observers
      = (n.subscriptions i).observers ++ (Directory.observer? i (n.emitterOf handle, o)).toList := by
  unfold observe Directory.observer?
  rw [subscriptions_modifyEmitter h]
  by_cases hi : i = n.emitterOf handle
  · rw [if_pos hi, if_pos hi.symm]
    rfl
  · rw [if_neg hi, if_neg (Ne.symm hi)]
    exact (List.append_nil _).symm

/-- A sink leaves the observers as they are. -/
theorem observers_modifySink {n : Network α} {handle : Nat} (h : n.emitterOf handle < n.emitters.size)
    (s : Sink) (i : Nat) :
    ((n.modifyEmitter handle ({ · with sink := some s })).subscriptions i).observers
      = (n.subscriptions i).observers := by
  rw [subscriptions_modifyEmitter h]
  split <;> rfl

/-- What one operation does to the directory and to the observers of an emitter: it adds what it registers,
behind what there is. -/
theorem Sound.registered_perform {n : Network α} (h : n.Sound) {d : Directory} (hd : n.Listed d)
    {op : Operation α} (hop : op.Fits n) :
    (op.perform n).Listed (d.after op) ∧ ∀ i, ((op.perform n).subscriptions i).observers
      = (n.subscriptions i).observers ++ ((d.registration? op).bind (Directory.observer? i)).toList := by
  -- most operations register no observer
  have hsame : ∀ {n' : Network α}, (∀ i, (n'.subscriptions i).observers = (n.subscriptions i).observers) →
      ∀ i, (n'.subscriptions i).observers = (n.subscriptions i).observers ++ [] :=
    fun heq i => (heq i).trans (List.append_nil _).symm
  cases op with
  | new =>
    refine ⟨hd.new, hsame fun i => ?_⟩
    exact congrArg Emitter.observers (subscriptions_new n i)
  | clone handle => exact ⟨hd.clone handle, hsame fun _ => rfl⟩
  | listen handle label =>
    have hhandle := h.handle handle (hop.1 handle List.mem_cons_self)
    refine ⟨hd.modifyEmitter handle _, fun i => ?_⟩
    show _ = _ ++ (Directory.observer? i (d.owner handle, _)).toList
    rw [← hd.emitterOf handle]
    exact observers_observe hhandle _ i
  | forward handle target f =>
    have hhandle := h.handle handle (hop.1 handle List.mem_cons_self)
    refine ⟨hd.modifyEmitter handle _, fun i => ?_⟩
    show _ = _ ++ (Directory.observer? i (d.owner handle, .forward (d.owner target) f)).toList
    rw [← hd.emitterOf handle, ← hd.emitterOf target]
    exact observers_observe hhandle _ i
  | map handle f =>
    -- the handle of the derived emitter, which is there already, is the next one
    have hold := hop.1 handle List.mem_cons_self
    have hhandle := Nat.lt_of_lt_of_le hold (extends_new n).handles
    have hderived : n.new.2.emitterOf n.handles.size = d.emitters :=
      ((getD_push n.handles _ _ 0).trans (if_pos rfl)).trans hd.emitters
    refine ⟨hd.new.modifyEmitter handle _, fun i => ?_⟩
    show _ = _ ++ (Directory.observer? i (d.owner handle, .forward d.emitters f)).toList
    rw [← hd.emitterOf handle, ← (extends_new n).emitterOf handle hold, ← hderived,
      ← congrArg Emitter.observers (subscriptions_new n i)]
    exact observers_observe (h.new.handle handle hhandle) _ i
  | sink handle label =>
    have hhandle := h.handle handle (hop.1 handle List.mem_cons_self)
    cases hsink : (n.emitter handle).sink with
    | some s =>
      rw [perform_sink_of_some hsink]
      exact ⟨hd, hsame fun _ => rfl⟩
    | none =>
      rw [perform_sink_of_none hsink]
      exact ⟨hd.modifyEmitter handle _, hsame (observers_modifySink hhandle _)⟩
  | attach handle =>
    have hhandle := h.handle handle (hop.1 handle List.mem_cons_self)
    cases hsink : (n.emitter handle).sink with
    | some s =>
      rw [perform_attach_of_some hsink]
      exact ⟨hd, hsame fun _ => rfl⟩
    | none =>
      rw [perform_attach_of_none hsink]
      have hd' : n.addReceiver.Listed d := ⟨hd.handles, hd.emitters⟩
      exact ⟨hd'.modifyEmitter handle _, hsame (observers_modifySink (n := n.addReceiver) hhandle _)⟩
  | emit handle v => exact ⟨⟨hd.handles, hd.emitters⟩, hsame fun _ => rfl⟩
  | emitLent copy handle v => exact ⟨⟨hd.handles, hd.emitters⟩, hsame fun _ => rfl⟩
  | drain receiver =>
    cases hdropped : (n.receiver receiver).dropped with
    | true =>
      rw [perform_drain_of_dropped hdropped]
      exact ⟨hd, hsame fun _ => rfl⟩
    | false =>
      rw [perform_drain_of_live hdropped]
      exact ⟨⟨hd.handles, hd.emitters⟩, hsame fun _ => rfl⟩
  | dropReceiver receiver => exact ⟨⟨hd.handles, hd.emitters⟩, hsame fun _ => rfl⟩

/-- What operations do to the directory and to the observers of an emitter. -/
theorem Sound.registered_run {n : Network α} (h : n.Sound) {d : Directory} (hd : n.Listed d)
    {ops : List (Operation α)} (hops : n.Fits ops) :
    (n.run ops).Listed (ops.foldl Directory.after d) ∧ ∀ i, ((n.run ops).subscriptions i).observers
      = (n.subscriptions i).observers ++ (d.registrations ops).filterMap (Directory.observer? i) := by
  induction ops generalizing n d with
  | nil => exact ⟨hd, fun i => (List.append_nil _).symm⟩
  | cons op ops ih =>
    obtain ⟨hd', hstep⟩ := h.registered_perform hd hops.1
    obtain ⟨hlisted, hrest⟩ := ih (h.perform hops.1).2 hd' hops.2
    refine ⟨hlisted, fun i => (hrest i).trans ?_⟩
    rw [hstep, List.append_assoc, Directory.registrations, List.filterMap_append]
    -- an operation registers one observer at most
    cases d.registration? op with
    | none => rfl
    | some registration =>
      rw [Option.toList_some, List.filterMap_cons, Option.bind_some]
      cases Directory.observer? i registration <;> rfl

end Network

end LiveGraph
