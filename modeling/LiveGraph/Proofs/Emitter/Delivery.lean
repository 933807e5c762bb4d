import LiveGraph.Proofs.Emitter.Growth

/-!
# Delivery in a network of emitters

The observers of an emitter are those that were registered with it, in the order of registration. Every
emission in a network without cycles ends, and delivers along all routes. A receiver is fed by the one
emitter that it was attached to: what was taken from its queue, with what is still waiting there, is what came
by that emitter since, in order, until the receiver is dropped.
-/

namespace LiveGraph

variable {α : Type}

/-- Values arrive at a receiver, which discards them if it is gone. -/
def Receiver.offer (vs : List α) (r : Receiver α) : Receiver α :=
  if r.dropped then r else { r with queued := r.queued ++ vs.toArray }

namespace Receiver

theorem offer_nil (r : Receiver α) : r.offer [] = r := by
  unfold offer
  split
  · rfl
  · rw [Array.append_empty]

/-- Values can be offered in two parts. -/
theorem offer_offer (r : Receiver α) (vs ws : List α) : (r.offer vs).offer ws = r.offer (vs ++ ws) := by
  unfold offer
  cases hdropped : r.dropped with
  | true => simp [hdropped]
  | false => simp

end Receiver

namespace Network

/-- The values that wait for a receiver, oldest first. -/
def waiting (n : Network α) (r : Nat) : List α := (n.receiver r).queued.toList

namespace Operation

/-- The values that an operation takes from a receiver. -/
def taken (r : Nat) (n : Network α) : Operation α → List α
  | drain receiver => if receiver = r then ((n.drain r).map (·.1.toList)).getD [] else []
  | _ => []

/-- What becomes of a receiver by an operation. -/
def effect (r : Nat) (n : Network α) (op : Operation α) (x : Receiver α) : Receiver α :=
  match op with
  | emit handle v => x.offer ((n.deliveries handle v).filterMap (Delivery.queued? r))
  | emitLent copy handle v => x.offer ((n.deliveriesLent copy handle v).filterMap (Delivery.queued? r))
  | drain receiver => if receiver = r ∧ x.dropped = false then { x with queued := #[] } else x
  | dropReceiver receiver => if receiver = r then { dropped := true } else x
  | _ => x

/-- The values that come by an emitter during an operation. -/
def arrived (emitter : Nat) (n : Network α) : Operation α → List α
  | emit handle v | emitLent _ handle v => n.arrivals emitter handle v
  | _ => []

end Operation

/-- The values that some operations take from a receiver, in order. -/
def taken (r : Nat) (n : Network α) : List (Operation α) → List α
  | [] => []
  | op :: ops => op.taken r n ++ taken r (op.perform n) ops

/-- The values that come by an emitter during some operations, in order. -/
def arrived (emitter : Nat) (n : Network α) : List (Operation α) → List α
  | [] => []
  | op :: ops => op.arrived emitter n ++ arrived emitter (op.perform n) ops

/-! ## What operations do to a receiver -/

theorem getD_receive (receivers : Array (Receiver α)) (d : Delivery α) {r : Nat}
    (hr : r < receivers.size) :
    (receive receivers d).getD r {} = (receivers.getD r {}).offer (d.queued? r).toList := by
  cases d with
  | listener label v => exact (Receiver.offer_nil _).symm
  | queue i v =>
    show (receivers.modify i _).getD r {} = _
    rw [getD_modify]
    by_cases hi : i = r
    · have hqueued : (Delivery.queue i v).queued? r = some v := if_pos hi
      rw [if_pos ⟨hi, hr⟩, hqueued]
      unfold Receiver.offer
      split
      · rfl
      · rw [Array.push_eq_append]
        rfl
    · have hqueued : (Delivery.queue i v).queued? r = none := if_neg hi
      rw [if_neg fun h => hi h.1, hqueued]
      exact (Receiver.offer_nil _).symm

/-- A receiver is offered the deliveries for its queue, in their order. -/
theorem getD_foldl_receive (ds : List (Delivery α)) (receivers : Array (Receiver α)) {r : Nat}
    (hr : r < receivers.size) :
    (ds.foldl receive receivers).getD r {}
      = (receivers.getD r {}).offer (ds.filterMap (Delivery.queued? r)) := by
  induction ds generalizing receivers with
  | nil => exact (Receiver.offer_nil _).symm
  | cons d ds ih =>
    have hcons : (d :: ds).filterMap (Delivery.queued? r)
        = (d.queued? r).toList ++ ds.filterMap (Delivery.queued? r) := by
      cases hd : d.queued? r with
      | none => rw [List.filterMap_cons_none hd]; rfl
      | some v => rw [List.filterMap_cons_some hd]; rfl
    rw [List.foldl_cons, ih (receive receivers d) (by rw [size_receive]; exact hr), getD_receive _ _ hr,
      Receiver.offer_offer, hcons]

/-- What an operation does to a receiver, whatever else it does to the network. -/
theorem receiver_perform (n : Network α) {r : Nat} (hr : r < n.receivers.size) (op : Operation α) :
    (op.perform n).receiver r = op.effect r n (n.receiver r) := by
  cases op with
  | new => rfl
  | clone handle => rfl
  | listen handle label => rfl
  | forward handle target f => rfl
  | map handle f => rfl
  | sink handle label =>
    cases hsink : (n.emitter handle).sink with
    | some s =>
      rw [perform_sink_of_some hsink]
      rfl
    | none =>
      rw [perform_sink_of_none hsink]
      rfl
  -- the new receiver has another number
  | attach handle =>
    cases hsink : (n.emitter handle).sink with
    | some s =>
      rw [perform_attach_of_some hsink]
      rfl
    | none =>
      rw [perform_attach_of_none hsink]
      show (n.receivers.push {}).getD r {} = n.receiver r
      rw [getD_push, if_neg (Nat.ne_of_lt hr)]
      rfl
  | emit handle v => exact getD_foldl_receive _ _ hr
  | emitLent copy handle v => exact getD_foldl_receive _ _ hr
  | drain receiver =>
    cases hdropped : (n.receiver receiver).dropped with
    | true =>
      rw [perform_drain_of_dropped hdropped]
      refine (if_neg ?_).symm
      rintro ⟨rfl, hlive⟩
      rw [hdropped] at hlive
      cases hlive
    | false =>
      rw [perform_drain_of_live hdropped]
      show (n.receivers.modify receiver _).getD r {} = if _ then _ else _
      rw [getD_modify]
      by_cases hreceiver : receiver = r
      · subst hreceiver
        rw [if_pos ⟨rfl, hr⟩, if_pos ⟨rfl, hdropped⟩]
        rfl
      · rw [if_neg fun h => hreceiver h.1, if_neg fun h => hreceiver h.1]
        rfl
  | dropReceiver receiver =>
    show (n.receivers.modify receiver _).getD r {} = if _ then _ else _
    rw [getD_modify]
    by_cases hreceiver : receiver = r
    · rw [if_pos ⟨hreceiver, hr⟩, if_pos hreceiver]
    · rw [if_neg fun h => hreceiver h.1, if_neg hreceiver]
      rfl

/-- An emitter feeds a receiver, which is still there. -/
structure Fed (n : Network α) (emitter r : Nat) : Prop where
  sink : (n.subscriptions emitter).sink = some (.queue r)
  live : (n.receiver r).dropped = false

/-- An emission queues for a receiver what comes by the emitter that feeds it. -/
theorem Fed.queued_eq {n : Network α} {emitter r : Nat} (h : n.Fed emitter r) (hsound : n.Sound)
    (hacyclic : n.Acyclic) (handle : Nat) (v : α) :
    (n.deliveries handle v).filterMap (Delivery.queued? r) = n.arrivals emitter handle v := by
  have hsink : ∀ i, (n.subscriptions i).sink = some (.queue r) ↔ i = emitter := by
    intro i
    refine ⟨fun hi => hsound.unique i emitter r hi h.sink, ?_⟩
    rintro rfl
    exact h.sink
  unfold deliveries
  rw [trace_eq, List.filterMap_filterMap]
  exact hacyclic.queued_eq hsink _ _ v

/-- A live receiver takes all that it is offered, behind what waits. -/
theorem Fed.offer {n : Network α} {emitter r : Nat} (h : n.Fed emitter r) (vs : List α) :
    ((n.receiver r).offer vs).dropped = false ∧
      ((n.receiver r).offer vs).queued.toList = n.waiting r ++ vs := by
  unfold Receiver.offer
  rw [if_neg (Bool.eq_false_iff.1 h.live)]
  refine ⟨h.live, ?_⟩
  rw [Array.toList_append]
  rfl

/-- What is taken from a queue and what waits there afterwards are what waited there before and what came
by in the meantime. -/
theorem Fed.perform {n : Network α} {emitter r : Nat} (h : n.Fed emitter r) (hsound : n.Sound)
    (hacyclic : n.Acyclic) {op : Operation α} (hop : op.Fits n) (hdrop : op ≠ .dropReceiver r) :
    (op.perform n).Fed emitter r ∧
      op.taken r n ++ (op.perform n).waiting r = n.waiting r ++ op.arrived emitter n := by
  have hsink := (hsound.perform hop).1.sink emitter _ h.sink
  have hreceiver := receiver_perform n (hsound.queue emitter r h.sink) op
  -- only the receiver matters from here on
  suffices heffect : (op.effect r n (n.receiver r)).dropped = false ∧
      op.taken r n ++ (op.effect r n (n.receiver r)).queued.toList
        = n.waiting r ++ op.arrived emitter n by
    refine ⟨⟨hsink, ?_⟩, ?_⟩
    · rw [hreceiver]
      exact heffect.1
    · unfold waiting
      rw [hreceiver]
      exact heffect.2
  have hquiet : (n.receiver r).dropped = false ∧
      [] ++ (n.receiver r).queued.toList = n.waiting r ++ [] :=
    ⟨h.live, (List.append_nil _).symm⟩
  cases op with
  | new | clone | listen | forward | map | sink | attach => exact hquiet
  | emit handle v =>
    show ((n.receiver r).offer _).dropped = false ∧ [] ++ ((n.receiver r).offer _).queued.toList = _
    rw [h.queued_eq hsound hacyclic]
    exact h.offer _
  | emitLent copy handle v =>
    show ((n.receiver r).offer _).dropped = false ∧ [] ++ ((n.receiver r).offer _).queued.toList = _
    rw [deliveriesLent_eq n hop.2, h.queued_eq hsound hacyclic]
    exact h.offer _
  | drain receiver =>
    show (if _ then _ else n.receiver r).dropped = false ∧
      (if receiver = r then _ else []) ++ (if _ then _ else n.receiver r).queued.toList = _
    by_cases hr : receiver = r
    · rw [if_pos ⟨hr, h.live⟩, if_pos hr, drain_of_live h.live]
      exact ⟨h.live, rfl⟩
    · rw [if_neg fun hc => hr hc.1, if_neg hr]
      exact hquiet
  | dropReceiver receiver =>
    have hr : receiver ≠ r := fun hc => hdrop (hc ▸ rfl)
    show (if receiver = r then _ else n.receiver r).dropped = false ∧
      [] ++ (if receiver = r then _ else n.receiver r).queued.toList = _
    rw [if_neg hr]
    exact hquiet

/-- What was taken and what still waits is what has arrived, in this order. -/
theorem Fed.run {n : Network α} {emitter r : Nat} (h : n.Fed emitter r) (hsound : n.Sound)
    {ops : List (Operation α)} (hops : n.Fits ops) (hacyclic : (n.run ops).Acyclic)
    (hdrop : .dropReceiver r ∉ ops) :
    n.taken r ops ++ (n.run ops).waiting r = n.waiting r ++ n.arrived emitter ops := by
  induction ops generalizing n with
  | nil => exact (List.append_nil _).symm
  | cons op ops ih =>
    obtain ⟨hfed, hstep⟩ := h.perform hsound ((hsound.run hops).1.acyclic hacyclic) hops.1
      fun hop => hdrop (hop ▸ List.mem_cons_self)
    have hrest := ih hfed (hsound.perform hops.1).2 hops.2 hacyclic
      fun hin => hdrop (List.mem_cons_of_mem _ hin)
    calc (op.taken r n ++ taken r (op.perform n) ops) ++ ((op.perform n).run ops).waiting r
        = op.taken r n ++ ((op.perform n).waiting r ++ arrived emitter (op.perform n) ops) := by
          rw [List.append_assoc, hrest]
      _ = n.waiting r ++ (op.arrived emitter n ++ arrived emitter (op.perform n) ops) := by
          rw [← List.append_assoc, hstep, List.append_assoc]

/-- Nothing is taken from a receiver that is gone, and it does not come back. -/
theorem taken_of_dropped {n : Network α} {r : Nat} (hr : r < n.receivers.size)
    (hdropped : (n.receiver r).dropped = true) {ops : List (Operation α)} (hsound : n.Sound)
    (hops : n.Fits ops) : n.taken r ops = [] := by
  induction ops generalizing n with
  | nil => rfl
  | cons op ops ih =>
    -- a dropped receiver stays dropped
    have hstays : ((op.perform n).receiver r).dropped = true := by
      rw [receiver_perform n hr]
      cases op with
      | emit | emitLent =>
        show ((n.receiver r).offer _).dropped = true
        unfold Receiver.offer
        rw [if_pos hdropped]
        exact hdropped
      | drain receiver =>
        show (if _ then _ else n.receiver r).dropped = true
        rw [if_neg fun hc => Bool.eq_false_iff.1 hc.2 hdropped]
        exact hdropped
      | dropReceiver receiver =>
        show (if _ then _ else n.receiver r).dropped = true
        split
        · rfl
        · exact hdropped
      | new | clone | listen | forward | map | sink | attach => exact hdropped
    have htaken : op.taken r n = [] := by
      cases op with
      | drain receiver =>
        show (if _ then _ else _) = _
        split
        · rw [drain_of_dropped hdropped]
          rfl
        · rfl
      | _ => rfl
    obtain ⟨hextends, hsound'⟩ := hsound.perform hops.1
    show op.taken r n ++ taken r (op.perform n) ops = []
    rw [htaken, ih (Nat.lt_of_lt_of_le hr hextends.receivers) hstays hsound' hops.2]
    rfl

/-- A receiver that was dropped hands nothing over any more. -/
theorem Sound.taken_dropReceiver {n : Network α} (h : n.Sound) {r : Nat} (hr : r < n.receivers.size)
    {ops : List (Operation α)} (hops : n.Fits (.dropReceiver r :: ops)) :
    (n.dropReceiver r).taken r ops = [] := by
  obtain ⟨hextends, hsound⟩ := h.perform hops.1
  have hdropped : ((n.dropReceiver r).receiver r).dropped = true := by
    rw [show (n.dropReceiver r).receiver r = _ from receiver_perform n hr (.dropReceiver r)]
    exact congrArg Receiver.dropped (if_pos rfl)
  exact taken_of_dropped (Nat.lt_of_lt_of_le hr hextends.receivers) hdropped hsound hops.2

/-! ## Delivery -/

/-- Emitting through a handle ends, and delivers one value at the end of each route, in the order of the
routes, also if the value is only lent. So listeners hear one value for each route to them. -/
structure Delivers (n : Network α) (handle : Nat) : Prop where
  ordered : (n.routes handle).Pairwise Route.Precedes
  mem_routes : ∀ r, r ∈ n.routes handle ↔ n.IsRoute (n.emitterOf handle) r
  ends : ∀ v log, n.Emits handle v log ↔ log = (n.routes handle).filterMap (Route.delivery? v)
  emit : ∀ v, n.emit handle v = n.hand ((n.routes handle).filterMap (Route.delivery? v))
  heard : ∀ v, (n.emit handle v).1 = (n.routes handle).filterMap (Route.heard? v)
  lent : ∀ copy v, copy v = v → n.emitLent copy handle v = n.emit handle v

/-- A sink can be registered through a handle only where there is none, and nothing else changes then. Where
there is one, nothing changes at all. -/
structure Registers (n : Network α) (handle : Nat) : Prop where
  rejected : ∀ s, (n.emitter handle).sink = some s →
    (∀ t, n.setSink handle t = .error .sinkTaken) ∧ n.attach handle = .error .sinkTaken ∧
      (∀ label, Operation.perform n (.sink handle label) = n) ∧ Operation.perform n (.attach handle) = n
  registered : (n.emitter handle).sink = none → ∀ s, ∃ n', n.setSink handle s = .ok n' ∧
    ∀ i, n'.subscriptions i = if i = n.emitterOf handle then { n.subscriptions i with sink := some s }
      else n.subscriptions i
  attached : (n.emitter handle).sink = none → ∃ r n', n.attach handle = .ok (r, n') ∧
    ∀ i, n'.subscriptions i = if i = n.emitterOf handle
      then { n.subscriptions i with sink := some (.queue r) } else n.subscriptions i
  performed : (n.emitter handle).sink = none →
    (∀ label, n.setSink handle (.listener label) = .ok (Operation.perform n (.sink handle label))) ∧
      ∃ r, n.attach handle = .ok (r, Operation.perform n (.attach handle))

/-- A value goes along all routes from its emitter, and along no others. -/
theorem Sound.delivers {n : Network α} (h : n.Sound) (hacyclic : n.Acyclic) {handle : Nat}
    (hhandle : handle < n.handles.size) : n.Delivers handle where
  ordered := n.pairwise_survey _ _
  mem_routes _ := hacyclic.mem_survey h.closed (h.handle handle hhandle)
  ends := hacyclic.emits_iff h.closed (h.handle handle hhandle)
  emit v := by
    unfold Network.emit deliveries
    rw [trace_eq]
    rfl
  heard v := by
    show (n.trace n.emitters.size (n.emitterOf handle) v).filterMap _ = (n.survey _ _).filterMap _
    rw [trace_eq, List.filterMap_filterMap]
    congr 1
    funext r
    unfold Route.delivery? Route.heard?
    cases r.stop with
    | entry i => rfl
    | outlet s => cases s <;> rfl
  lent copy v hcopy := by
    unfold emitLent Network.emit
    rw [deliveriesLent_eq n hcopy]

/-- Registering a sink fails exactly where there is one. -/
theorem Sound.registers {n : Network α} (h : n.Sound) {handle : Nat} (hhandle : handle < n.handles.size) :
    n.Registers handle where
  rejected _ hs :=
    ⟨setSink_of_some hs, attach_of_some hs, perform_sink_of_some hs, perform_attach_of_some hs⟩
  registered hnone s :=
    ⟨_, setSink_of_none hnone s, subscriptions_modifyEmitter (h.handle handle hhandle) _⟩
  attached hnone :=
    ⟨_, _, attach_of_none hnone,
      subscriptions_modifyEmitter (n := n.addReceiver) (h.handle handle hhandle) _⟩
  performed hnone := by
    refine ⟨fun label => ?_, n.receivers.size, ?_⟩
    · rw [perform_sink_of_none hnone]
      exact setSink_of_none hnone _
    · rw [perform_attach_of_none hnone]
      exact attach_of_none hnone

/-- Emitting depends on the emitter only, not on the handle. -/
theorem emit_congr {n : Network α} {handle handle' : Nat} (h : n.emitterOf handle = n.emitterOf handle')
    (v : α) : n.emit handle v = n.emit handle' v := by
  unfold emit deliveries
  rw [h]

/-- A clone of a handle stands for the same emitter, whatever happens afterwards. -/
theorem Sound.emitterOf_clone {n : Network α} (h : n.Sound) {handle : Nat} {later : List (Operation α)}
    (hlater : n.Fits (.clone handle :: later)) :
    (n.run (.clone handle :: later)).emitterOf (n.clone handle).1
      = (n.run (.clone handle :: later)).emitterOf handle := by
  have hhandle := hlater.1.1 handle List.mem_cons_self
  have hsize : (n.clone handle).2.handles.size = n.handles.size + 1 := Array.size_push _
  have hclone : (n.clone handle).2.emitterOf n.handles.size = n.emitterOf handle :=
    (getD_push n.handles _ _ 0).trans (if_pos rfl)
  have hextends := ((h.clone hhandle).run hlater.2).1
  show ((n.clone handle).2.run later).emitterOf n.handles.size
    = ((n.clone handle).2.run later).emitterOf handle
  rw [hextends.emitterOf n.handles.size (by omega), hextends.emitterOf handle (by omega), hclone,
    (extends_clone n handle).emitterOf handle hhandle]

/-- A receiver that was just attached is fed, and nothing waits for it. -/
theorem Sound.attach {n n' : Network α} (h : n.Sound) {handle r : Nat} (hhandle : handle < n.handles.size)
    (hattach : n.attach handle = .ok (r, n')) :
    Operation.perform n (.attach handle) = n' ∧ n'.Fed (n.emitterOf handle) r ∧ n'.waiting r = [] := by
  cases hsink : (n.emitter handle).sink with
  | some s =>
    rw [attach_of_some hsink] at hattach
    cases hattach
  | none =>
    rw [attach_of_none hsink] at hattach
    cases hattach
    have hnew : (n.receivers.push {}).getD n.receivers.size {} = ({} : Receiver α) := by
      rw [getD_push, if_pos rfl]
    refine ⟨perform_attach_of_none hsink, ⟨?_, ?_⟩, ?_⟩
    · rw [subscriptions_modifyEmitter (n := n.addReceiver) (h.handle handle hhandle)]
      exact congrArg Emitter.sink (if_pos rfl)
    · exact congrArg Receiver.dropped hnew
    · exact congrArg (fun x => x.queued.toList) hnew

/-- The observers of an emitter are those that were registered with it, in the order of registration. In a
network without cycles, every emission ends, with one delivery for each route, in order, and clones of a
handle emit alike. The first sink of an emitter stays its only one. A receiver gets what came by the emitter
that it was attached to since then, in order and each value once, until it is dropped. -/
theorem values_follow_routes {n : Network α} {ops : List (Operation α)} (hfits : Fits {} ops)
    (hrun : run {} ops = n) (hacyclic : n.Acyclic) :
    n.Listed (ops.foldl Directory.after {}) ∧
    (∀ i, (n.subscriptions i).observers = Directory.observers ops i) ∧
    (∀ handle < n.handles.size, n.Delivers handle ∧ n.Registers handle) ∧
    (∀ before handle later, ops = before ++ .clone handle :: later →
      ∀ v, n.emit ((run {} before).clone handle).1 v = n.emit handle v) ∧
    (∀ before later, ops = before ++ later → ∀ i s,
      ((run {} before).subscriptions i).sink = some s → (n.subscriptions i).sink = some s) ∧
    (∀ before handle later r n₁, ops = before ++ .attach handle :: later →
      (run {} before).attach handle = .ok (r, n₁) →
      (∀ used rest, later = used ++ rest → .dropReceiver r ∉ used →
        n₁.taken r used ++ (n₁.run used).waiting r
          = n₁.arrived ((run {} before).emitterOf handle) used) ∧
      (∀ used rest, later = used ++ .dropReceiver r :: rest →
        ((n₁.run used).dropReceiver r).taken r rest = [])) := by
  subst hrun
  have hsound := (sound_empty.run hfits).2
  -- each prefix of the operations leads to a sound network, from which the rest goes on
  have hsplit : ∀ before later, ops = before ++ later →
      (run {} before : Network α).Sound ∧ (run {} before).Fits later ∧
        (run {} before).run later = run {} ops := by
    rintro before later rfl
    obtain ⟨hbefore, hlater⟩ := fits_append.1 hfits
    exact ⟨(sound_empty.run hbefore).2, hlater, (run_append _ _ _).symm⟩
  have hempty : ({} : Network α).Listed {} := ⟨rfl, rfl⟩
  obtain ⟨hlisted, hobservers⟩ := sound_empty.registered_run hempty hfits
  refine ⟨hlisted, hobservers,
    fun handle hhandle => ⟨hsound.delivers hacyclic hhandle, hsound.registers hhandle⟩, ?_, ?_, ?_⟩
  · intro before handle later hops v
    obtain ⟨hbefore, hlater, hrun⟩ := hsplit before _ hops
    rw [← hrun]
    exact emit_congr (hbefore.emitterOf_clone hlater) v
  · intro before later hops i s hs
    obtain ⟨hbefore, hlater, hrun⟩ := hsplit before later hops
    rw [← hrun]
    exact (hbefore.run hlater).1.sink i s hs
  · intro before handle later r n₁ hops hattach
    obtain ⟨hbefore, hlater, hrun⟩ := hsplit before _ hops
    have hhandle := hlater.1.1 handle List.mem_cons_self
    obtain ⟨hn₁, hfed, hwaiting⟩ := hbefore.attach hhandle hattach
    -- the receiver's history begins right after it was attached
    have hsound₁ : n₁.Sound := hn₁ ▸ (hbefore.perform hlater.1).2
    have hlater₁ : n₁.Fits later := hn₁ ▸ hlater.2
    have hrun₁ : n₁.run later = run {} ops := hn₁ ▸ hrun
    refine ⟨fun used rest hsplit₁ hdrop => ?_, fun used rest hsplit₁ => ?_⟩
    · subst hsplit₁
      obtain ⟨hused, hrest⟩ := fits_append.1 hlater₁
      have hextends := ((hsound₁.run hused).2.run hrest).1
      rw [← run_append, hrun₁] at hextends
      rw [hfed.run hsound₁ hused (hextends.acyclic hacyclic) hdrop, hwaiting]
      rfl
    · subst hsplit₁
      obtain ⟨hused, hrest⟩ := fits_append.1 hlater₁
      obtain ⟨hextends, hsound'⟩ := hsound₁.run hused
      exact hsound'.taken_dropReceiver
        (Nat.lt_of_lt_of_le (hsound₁.queue _ r hfed.sink) hextends.receivers) hrest

/-- Two ways lead from the first emitter to the last one, which gets a second handle. Listeners stand before
and behind the forwards of the first emitter, and one stands at the end. -/
def diamond : List (Operation Nat) :=
  [.new, .listen 0 "before", .map 0 (· + 1), .map 0 (· * 2), .listen 0 "behind", .new,
    .forward 1 3 (· + 10), .forward 2 3 (· + 20), .clone 3, .listen 4 "end"]

/-- Values for the last emitter are queued and taken, after a second sink was rejected. -/
def diamondUse : List (Operation Nat) := [.sink 3 "second", .emit 0 5, .drain 0, .emitLent id 4 7]

/-- A receiver is attached through the second handle, and dropped in the end. -/
def diamondRun : List (Operation Nat) :=
  diamond ++ .attach 4 :: (diamondUse ++ [.dropReceiver 0, .emit 0 1, .drain 0])

theorem values_follow_routes_diamond :
    Fits {} diamondRun ∧ (run {} diamondRun).Acyclic ∧
    ((run {} diamondRun).subscriptions 0).observers
      = [.listener "before", .forward 1 (· + 1), .forward 2 (· * 2), .listener "behind"] ∧
    ((run {} diamondRun).subscriptions 3).observers = [.listener "end"] ∧
    (run {} diamondRun).emitterOf 4 = 3 ∧
    ((run {} diamondRun).emit 0 5).1 = [("before", 5), ("end", 16), ("end", 30), ("behind", 5)] ∧
    taken 0 (run {} (diamond ++ [.attach 4])) diamondUse = [16, 30] ∧
    waiting (run {} (diamond ++ .attach 4 :: diamondUse)) 0 = [7] ∧
    arrived 3 (run {} (diamond ++ [.attach 4])) diamondUse = [16, 30] ++ [7] := by
  have hfits : Fits {} diamondRun := by decide +kernel
  have hacyclic : (run {} diamondRun).Acyclic := acyclic_of_ascending (by decide +kernel)
  have htaken : taken 0 (run {} (diamond ++ [.attach 4])) diamondUse = [16, 30] := by decide +kernel
  have hwaiting : waiting (run {} (diamond ++ .attach 4 :: diamondUse)) 0 = [7] := by decide +kernel
  obtain ⟨hlisted, hobservers, -, -, -, hreceiver⟩ := values_follow_routes hfits rfl hacyclic
  refine ⟨hfits, hacyclic, hobservers 0, hobservers 3, hlisted.emitterOf 4, by decide +kernel, htaken,
    hwaiting, ?_⟩
  rw [← htaken, ← hwaiting]
  exact ((hreceiver diamond 4 _ 0 _ rfl rfl).1 diamondUse _ rfl (by simp [diamondUse])).symm

end Network

end LiveGraph
