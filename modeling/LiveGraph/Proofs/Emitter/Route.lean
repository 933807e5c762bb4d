import LiveGraph.Emitter.Network

/-!
# Routes through a network of emitters

A value that is emitted takes every way that forwards lead, and each way ends at a listener or in a queue. A
route is such a way, or the part of it up to an emitter that the value comes by. Routes are addressed by
the positions of the forwards they take and of the observer they end at, so they have an order, in which
those through an earlier observer come first and the one to the sink comes last.

Emitting goes through the routes in this order. An emitter is locked while it delivers, so what is emitted
does not arrive anywhere if forwards lead back. Where they never do, every emission ends, and delivers one
value at the end of each route.
-/

namespace LiveGraph

variable {α : Type}

/-- Where a value comes by. -/
inductive Stop
  /-- The emitter with the given number emits it. -/
  | entry (emitter : Nat)
  /-- A listener or a queue gets it. -/
  | outlet (sink : Sink)

/-- A way that values take from an emitter. -/
structure Route (α : Type) where
  /-- The positions of the forwards taken, then that of the observer at the end, or of the sink, which
  stands after all observers. -/
  address : List Nat
  /-- What becomes of a value on the way. -/
  f : α → α
  stop : Stop

/-- The value that a delivery puts into the queue of a receiver. -/
def Delivery.queued? (receiver : Nat) : Delivery α → Option α
  | listener _ _ => none
  | queue i v => if i = receiver then some v else none

namespace Route

/-- The route that begins with a forward. -/
def behind (k : Nat) (f : α → α) (r : Route α) : Route α := ⟨k :: r.address, r.f ∘ f, r.stop⟩

/-- The delivery at the end of a route. -/
def delivery? (v : α) (r : Route α) : Option (Delivery α) :=
  match r.stop with
  | .entry _ => none
  | .outlet s => some (s.deliver (r.f v))

/-- What a listener hears at the end of a route. -/
def heard? (v : α) (r : Route α) : Option (String × α) :=
  match r.stop with
  | .outlet (.listener label) => some (label, r.f v)
  | _ => none

/-- The value that comes by an emitter at the end of a route. -/
def arrival? (emitter : Nat) (v : α) (r : Route α) : Option α :=
  match r.stop with
  | .entry i => if i = emitter then some (r.f v) else none
  | .outlet _ => none

/-- The value that is queued for a receiver at the end of a route. -/
def queued? (receiver : Nat) (v : α) (r : Route α) : Option α :=
  (r.delivery? v).bind (Delivery.queued? receiver)

/-- The first route comes before the second one. -/
def Precedes (r s : Route α) : Prop := List.Lex (· < ·) r.address s.address

end Route

/-- The emitter that an observer forwards to. -/
def Observer.target? : Observer α → Option Nat
  | listener _ => none
  | forward target _ => some target

/-- The routes through an observer at a position, where `next` has those from an emitter. -/
def Observer.routes (next : Nat → List (Route α)) (k : Nat) : Observer α → List (Route α)
  | listener label => [⟨[k], id, .outlet (.listener label)⟩]
  | forward target f => (next target).map (·.behind k f)

namespace Emitter

/-- The routes through the observers of an emitter, where `next` has those from an emitter. -/
def onward (next : Nat → List (Route α)) (e : Emitter α) : List (Route α) :=
  e.observers.zipIdx.flatMap fun p => p.1.routes next p.2

/-- The route to the sink of an emitter. -/
def toSink (e : Emitter α) : List (Route α) :=
  (e.sink.map fun s => ⟨[e.observers.length], id, .outlet s⟩).toList

end Emitter

namespace Network

/-- The subscriptions of the emitter with a number. -/
def subscriptions (n : Network α) (i : Nat) : Emitter α := n.emitters.getD i {}

theorem subscriptions_of_le {n : Network α} {i : Nat} (h : n.emitters.size ≤ i) :
    n.subscriptions i = {} := by
  unfold subscriptions
  rw [Array.getD_eq_getD_getElem?, Array.getElem?_eq_none h]
  rfl

/-- The first emitter forwards values to the second one. -/
def Forwards (n : Network α) (i j : Nat) : Prop :=
  ∃ f, .forward j f ∈ (n.subscriptions i).observers

/-- Forwards never lead back. -/
def Acyclic (n : Network α) : Prop := ∀ i, ¬ Relation.TransGen n.Forwards i i

/-- Forwards lead to emitters. -/
def Closed (n : Network α) : Prop := ∀ i j, n.Forwards i j → j < n.emitters.size

/-- A route from an emitter. -/
inductive IsRoute (n : Network α) : Nat → Route α → Prop
  | entry (i : Nat) : IsRoute n i ⟨[], id, .entry i⟩
  | listener {i k : Nat} {label : String}
      (h : (n.subscriptions i).observers[k]? = some (.listener label)) :
      IsRoute n i ⟨[k], id, .outlet (.listener label)⟩
  | sink {i : Nat} {s : Sink} (h : (n.subscriptions i).sink = some s) :
      IsRoute n i ⟨[(n.subscriptions i).observers.length], id, .outlet s⟩
  | forward {i k j : Nat} {f : α → α} {r : Route α}
      (h : (n.subscriptions i).observers[k]? = some (.forward j f)) (hr : IsRoute n j r) :
      IsRoute n i (r.behind k f)

/-- The routes from an emitter in their order, through at most `depth` emitters. -/
def survey (n : Network α) : (depth : Nat) → (emitter : Nat) → List (Route α)
  | 0, _ => []
  | depth + 1, i =>
    ⟨[], id, .entry i⟩ ::
      ((n.subscriptions i).onward (n.survey depth) ++ (n.subscriptions i).toSink)

/-- The routes from the emitter of a handle, in their order. -/
def routes (n : Network α) (handle : Nat) : List (Route α) :=
  n.survey n.emitters.size (n.emitterOf handle)

/-! ## Going through the routes -/

/-- A value is delivered at the end of each route that is surveyed. -/
theorem trace_eq (n : Network α) (depth i : Nat) (v : α) :
    n.trace depth i v = (n.survey depth i).filterMap (Route.delivery? v) := by
  induction depth generalizing i v with
  | zero => rfl
  | succ depth ih =>
    -- a forward adds its position to the addresses, which no delivery shows
    have hobserver : ∀ (k : Nat) (o : Observer α), o.deliver (n.trace depth) v
        = (o.routes (n.survey depth) k).filterMap (Route.delivery? v) := by
      intro k o
      cases o with
      | listener label => rfl
      | forward j f =>
        show n.trace depth j (f v) = ((n.survey depth j).map (·.behind k f)).filterMap _
        rw [ih, List.filterMap_map]
        rfl
    have hobservers : (n.subscriptions i).observers.flatMap (Observer.deliver (n.trace depth) v)
        = ((n.subscriptions i).onward (n.survey depth)).filterMap (Route.delivery? v) := by
      unfold Emitter.onward
      rw [List.filterMap_flatMap]
      -- positions are needed for addresses only, deliveries do not depend on them
      conv => lhs; rw [← List.zipIdx_map_fst 0 (n.subscriptions i).observers, List.flatMap_map]
      congr 1
      funext p
      exact hobserver p.2 p.1
    have hsink : ((n.subscriptions i).sink.map (Sink.deliver v)).toList
        = (n.subscriptions i).toSink.filterMap (Route.delivery? v) := by
      unfold Emitter.toSink
      cases (n.subscriptions i).sink <;> rfl
    unfold survey
    rw [List.filterMap_cons_none rfl, List.filterMap_append, ← hobservers, ← hsink]
    rfl

/-- Routes through an observer begin with its position. -/
theorem address_of_mem_routes {next : Nat → List (Route α)} {k : Nat} {o : Observer α} {r : Route α}
    (h : r ∈ o.routes next k) : ∃ address, r.address = k :: address := by
  cases o with
  | listener label =>
    rw [List.mem_singleton.1 h]
    exact ⟨[], rfl⟩
  | forward j f =>
    obtain ⟨s, -, rfl⟩ := List.mem_map.1 h
    exact ⟨s.address, rfl⟩

theorem precedes_routes {next : Nat → List (Route α)} (hnext : ∀ j, (next j).Pairwise Route.Precedes)
    (k : Nat) (o : Observer α) : (o.routes next k).Pairwise Route.Precedes := by
  cases o with
  | listener label => exact List.pairwise_singleton _ _
  | forward j f =>
    show ((next j).map _).Pairwise _
    rw [List.pairwise_map]
    exact (hnext j).imp .cons

/-- The routes are surveyed in their order. -/
theorem pairwise_survey (n : Network α) (depth i : Nat) :
    (n.survey depth i).Pairwise Route.Precedes := by
  induction depth generalizing i with
  | zero => exact .nil
  | succ depth ih =>
    have hpositions : (n.subscriptions i).observers.zipIdx.Pairwise fun p q => p.2 < q.2 := by
      rw [← List.pairwise_map, List.zipIdx_map_snd]
      exact List.pairwise_lt_range' 1
    refine List.pairwise_cons.2 ⟨fun r hr => ?_,
      List.pairwise_append.2 ⟨?_, ?_, fun r hr s hs => ?_⟩⟩
    · -- the emitter's own entry has the empty address
      rcases List.mem_append.1 hr with hr | hr
      · obtain ⟨p, -, hr⟩ := List.mem_flatMap.1 hr
        obtain ⟨address, haddress⟩ := address_of_mem_routes hr
        unfold Route.Precedes
        rw [haddress]
        exact .nil
      · obtain ⟨s, -, rfl⟩ := Option.map_eq_some_iff.1 (Option.mem_toList.1 hr)
        exact .nil
    · refine List.pairwise_flatMap.2 ⟨fun p _ => precedes_routes ih p.2 p.1, ?_⟩
      -- routes through two observers part at the first step
      refine hpositions.imp fun {p q} hlt r hr s hs => ?_
      obtain ⟨a, ha⟩ := address_of_mem_routes hr
      obtain ⟨b, hb⟩ := address_of_mem_routes hs
      unfold Route.Precedes
      rw [ha, hb]
      exact .rel hlt
    · unfold Emitter.toSink
      cases (n.subscriptions i).sink with
      | none => exact .nil
      | some s => exact List.pairwise_singleton _ _
    · -- the sink stands after all observers
      obtain ⟨p, hp, hr⟩ := List.mem_flatMap.1 hr
      obtain ⟨a, ha⟩ := address_of_mem_routes hr
      obtain ⟨t, -, rfl⟩ := Option.map_eq_some_iff.1 (Option.mem_toList.1 hs)
      have hlt : p.2 < (n.subscriptions i).observers.length :=
        (List.getElem?_eq_some_iff.1 (List.mem_zipIdx_iff_getElem?.1 hp)).1
      unfold Route.Precedes
      rw [ha]
      exact .rel hlt

/-- What is surveyed are routes. -/
theorem isRoute_of_mem_survey {n : Network α} {depth i : Nat} {r : Route α}
    (h : r ∈ n.survey depth i) : n.IsRoute i r := by
  induction depth generalizing i r with
  | zero => cases h
  | succ depth ih =>
    rcases List.mem_cons.1 h with rfl | h
    · exact .entry i
    rcases List.mem_append.1 h with h | h
    · obtain ⟨⟨o, k⟩, hp, hr⟩ := List.mem_flatMap.1 h
      have hk := List.mem_zipIdx_iff_getElem?.1 hp
      cases o with
      | listener label =>
        rw [List.mem_singleton.1 hr]
        exact .listener hk
      | forward j f =>
        obtain ⟨s, hs, rfl⟩ := List.mem_map.1 hr
        exact .forward hk (ih hs)
    · obtain ⟨s, hs, rfl⟩ := Option.map_eq_some_iff.1 (Option.mem_toList.1 h)
      exact .sink hs

/-! ## Networks without cycles -/

/-- A transitive relation that holds along each forward holds along every way. -/
theorem rel_of_reaches {n : Network α} {R : Nat → Nat → Prop} (htrans : ∀ {i j k}, R i j → R j k → R i k)
    (hforwards : ∀ {i j}, n.Forwards i j → R i j) {i j : Nat} (h : Relation.TransGen n.Forwards i j) :
    R i j := by
  induction h with
  | single hij => exact hforwards hij
  | tail _ hjk ih => exact htrans ih (hforwards hjk)

/-- Where forwards lead to later emitters only, they never lead back. -/
theorem acyclic_of_ascending {n : Network α} (h : ∀ i < n.emitters.size,
    ∀ o ∈ (n.subscriptions i).observers, ∀ j ∈ o.target?, i < j) : n.Acyclic := by
  have hforwards : ∀ {i j}, n.Forwards i j → i < j := by
    rintro i j ⟨f, hf⟩
    by_cases hi : i < n.emitters.size
    · exact h i hi _ hf j rfl
    · rw [subscriptions_of_le (Nat.le_of_not_lt hi)] at hf
      cases hf
  exact fun i hi => Nat.lt_irrefl i (rel_of_reaches (R := (· < ·)) Nat.lt_trans hforwards hi)

/-- Different emitters, from each of which forwards lead to a further emitter. -/
structure Upstream (n : Network α) (held : List Nat) (i : Nat) : Prop where
  lt : i < n.emitters.size
  reaches : ∀ x ∈ held, x < n.emitters.size ∧ Relation.TransGen n.Forwards x i
  nodup : held.Nodup

section Acyclic

variable {n : Network α} {held : List Nat} {i j : Nat}

theorem Acyclic.not_mem_upstream (h : n.Acyclic) (hup : n.Upstream held i) : i ∉ held :=
  fun hin => h i (hup.reaches i hin).2

theorem Acyclic.forward_upstream (h : n.Acyclic) (hclosed : n.Closed) (hup : n.Upstream held i)
    (hj : n.Forwards i j) : n.Upstream (i :: held) j where
  lt := hclosed i j hj
  reaches x hx := by
    rcases List.mem_cons.1 hx with rfl | hx
    · exact ⟨hup.lt, .single hj⟩
    · exact ⟨(hup.reaches x hx).1, .tail (hup.reaches x hx).2 hj⟩
  nodup := List.nodup_cons.2 ⟨h.not_mem_upstream hup, hup.nodup⟩

/-- There are no more different emitters than emitters. -/
theorem Acyclic.length_upstream (h : n.Acyclic) (hup : n.Upstream held i) :
    held.length < n.emitters.size := by
  have hnodup : (i :: held).Nodup := List.nodup_cons.2 ⟨h.not_mem_upstream hup, hup.nodup⟩
  have hle : (i :: held).length ≤ (List.range n.emitters.size).length := by
    refine hnodup.length_le_of_subset fun x hx => List.mem_range.2 ?_
    rcases List.mem_cons.1 hx with rfl | hx
    · exact hup.lt
    · exact (hup.reaches x hx).1
  rw [List.length_range, List.length_cons] at hle
  omega

/-- What holds of an emitter if it holds of those that it forwards to holds of all emitters, if forwards
never lead back. Besides the emitter there are the emitters on the way to it, `held`, and the number of
further emitters that a way can lead through. -/
theorem Acyclic.induction (h : n.Acyclic) (hclosed : n.Closed) {P : Nat → List Nat → Nat → Prop}
    (hstep : ∀ depth held i, (∀ j, n.Forwards i j → j ∉ i :: held ∧ P depth (i :: held) j) →
      P (depth + 1) held i) (hi : i < n.emitters.size) : P n.emitters.size [] i := by
  have hgo : ∀ depth held i, held.length + depth = n.emitters.size → n.Upstream held i →
      P depth held i := by
    intro depth
    induction depth with
    | zero =>
      intro held i hlength hup
      have := h.length_upstream hup
      omega
    | succ depth ih =>
      intro held i hlength hup
      refine hstep depth held i fun j hj => ?_
      have hup' := h.forward_upstream hclosed hup hj
      refine ⟨h.not_mem_upstream hup', ih (i :: held) j ?_ hup'⟩
      rw [List.length_cons]
      omega
  exact hgo n.emitters.size [] i (Nat.zero_add _) ⟨hi, by simp, .nil⟩

end Acyclic

/-- The survey misses no route. -/
theorem Acyclic.mem_survey {n : Network α} (h : n.Acyclic) (hclosed : n.Closed) {i : Nat}
    (hi : i < n.emitters.size) {r : Route α} :
    r ∈ n.survey n.emitters.size i ↔ n.IsRoute i r := by
  refine ⟨isRoute_of_mem_survey, ?_⟩
  apply h.induction hclosed (P := fun depth _ i => ∀ r, n.IsRoute i r → r ∈ n.survey depth i) _ hi
  intro depth held i ih r hr
  have hobserver : ∀ {o : Observer α} {k : Nat}, (n.subscriptions i).observers[k]? = some o →
      r ∈ o.routes (n.survey depth) k → r ∈ n.survey (depth + 1) i := by
    intro o k hk hr
    refine List.mem_cons_of_mem _ (List.mem_append_left _ (List.mem_flatMap.2 ⟨(o, k), ?_, hr⟩))
    exact List.mem_zipIdx_iff_getElem?.2 hk
  cases hr with
  | entry => exact List.mem_cons_self
  | listener hk => exact hobserver hk (List.mem_singleton.2 rfl)
  | sink hs =>
    refine List.mem_cons_of_mem _ (List.mem_append_right _ ?_)
    unfold Emitter.toSink
    rw [hs]
    exact List.mem_singleton.2 rfl
  | @forward _ k j f s hk hs =>
    have hmem := (ih j ⟨f, List.mem_of_getElem? hk⟩).2 s hs
    exact hobserver hk (List.mem_map.2 ⟨s, hmem, rfl⟩)

/-! ## Emissions -/

/-- What the sink of an emitter is handed. -/
def sinkDelivery (n : Network α) (i : Nat) (v : α) : List (Delivery α) :=
  ((n.subscriptions i).sink.map (Sink.deliver v)).toList

/-- Telling some observers of a value ends, with these deliveries, while the emitters in `held` are locked.
A forward has to lock its target, which only works if it is not locked already. -/
inductive Tells (n : Network α) :
    (held : List Nat) → List (Observer α) → α → List (Delivery α) → Prop
  | nil {held : List Nat} {v : α} : Tells n held [] v []
  | listener {held : List Nat} {label : String} {os : List (Observer α)} {v : α}
      {rest : List (Delivery α)} (hrest : Tells n held os v rest) :
      Tells n held (.listener label :: os) v (.listener label v :: rest)
  | forward {held : List Nat} {j : Nat} {f : α → α} {os : List (Observer α)} {v : α}
      {told rest : List (Delivery α)} (hfree : j ∉ held)
      (htold : Tells n (j :: held) (n.subscriptions j).observers (f v) told)
      (hrest : Tells n held os v rest) :
      Tells n held (.forward j f :: os) v (told ++ n.sinkDelivery j (f v) ++ rest)

/-- Emitting a value ends, with these deliveries. -/
def Emits (n : Network α) (handle : Nat) (v : α) (log : List (Delivery α)) : Prop :=
  ∃ told, n.Tells [n.emitterOf handle] (n.emitter handle).observers v told ∧
    log = told ++ n.sinkDelivery (n.emitterOf handle) v

/-- Telling can end in one way only. -/
theorem Tells.unique {n : Network α} {held : List Nat} {os : List (Observer α)} {v : α}
    {log log' : List (Delivery α)} (h : n.Tells held os v log) (h' : n.Tells held os v log') :
    log = log' := by
  induction h generalizing log' with
  | nil =>
    cases h'
    rfl
  | listener _ ih =>
    cases h' with
    | listener hrest => rw [ih hrest]
  | forward _ _ _ ihtold ihrest =>
    cases h' with
    | forward _ htold hrest => rw [ihtold htold, ihrest hrest]

/-- In a network without cycles, every emission ends. -/
theorem Acyclic.tells {n : Network α} (h : n.Acyclic) (hclosed : n.Closed) {i : Nat}
    (hi : i < n.emitters.size) (v : α) :
    ∃ told, n.Tells [i] (n.subscriptions i).observers v told ∧
      n.trace n.emitters.size i v = told ++ n.sinkDelivery i v := by
  apply h.induction hclosed (P := fun depth held i => ∀ v,
    ∃ told, n.Tells (i :: held) (n.subscriptions i).observers v told ∧
      n.trace depth i v = told ++ n.sinkDelivery i v) _ hi v
  intro depth held i ih v
  -- the induction is on the observers that are still to be told
  have htells : ∀ os : List (Observer α), (∀ o ∈ os, o ∈ (n.subscriptions i).observers) →
      n.Tells (i :: held) os v (os.flatMap (Observer.deliver (n.trace depth) v)) := by
    intro os
    induction os with
    | nil => exact fun _ => .nil
    | cons o os ihos =>
      intro hos
      have hrest := ihos fun p hp => hos p (List.mem_cons_of_mem _ hp)
      cases o with
      | listener label => exact .listener hrest
      | forward j f =>
        obtain ⟨hfree, hj⟩ := ih j ⟨f, hos _ List.mem_cons_self⟩
        obtain ⟨told, htold, htrace⟩ := hj (f v)
        rw [List.flatMap_cons]
        show n.Tells _ _ v (n.trace depth j (f v) ++ _)
        rw [htrace]
        exact .forward hfree htold hrest
  exact ⟨_, htells _ fun _ ho => ho, rfl⟩

/-- In a network without cycles, emitting a value ends with one delivery at the end of each route, in
order. -/
theorem Acyclic.emits_iff {n : Network α} (h : n.Acyclic) (hclosed : n.Closed) {handle : Nat}
    (hhandle : n.emitterOf handle < n.emitters.size) (v : α) (log : List (Delivery α)) :
    n.Emits handle v log ↔ log = (n.routes handle).filterMap (Route.delivery? v) := by
  obtain ⟨told, htold, htrace⟩ := h.tells hclosed hhandle v
  rw [routes, ← trace_eq, htrace]
  constructor
  · rintro ⟨told', htold', rfl⟩
    rw [htold'.unique htold]
  · rintro rfl
    exact ⟨told, htold, rfl⟩

/-! ## Queues -/

/-- The values that come by an emitter when a value is emitted, in order. -/
def arrivals (n : Network α) (emitter handle : Nat) (v : α) : List α :=
  (n.routes handle).filterMap (Route.arrival? emitter v)

/-- A route that comes by an emitter leads there. -/
theorem IsRoute.reaches {n : Network α} {i emitter : Nat} {r : Route α} (h : n.IsRoute i r)
    (hstop : r.stop = .entry emitter) : i = emitter ∨ Relation.TransGen n.Forwards i emitter := by
  induction h with
  | entry i =>
    cases hstop
    exact .inl rfl
  | listener => cases hstop
  | sink => cases hstop
  | @forward i k j f r hk _ ih =>
    have hforward : n.Forwards i j := ⟨f, List.mem_of_getElem? hk⟩
    rcases ih hstop with rfl | hreach
    · exact .inr (.single hforward)
    · exact .inr (.trans (.single hforward) hreach)

/-- Behind an emitter, nothing comes by it again. -/
theorem Acyclic.not_arrival {n : Network α} (h : n.Acyclic) {depth i : Nat} {r : Route α}
    (hr : r ∈ (n.subscriptions i).onward (n.survey depth)) (v : α) : r.arrival? i v = none := by
  obtain ⟨⟨o, k⟩, hp, hr⟩ := List.mem_flatMap.1 hr
  cases o with
  | listener label =>
    rw [List.mem_singleton.1 hr]
    rfl
  | forward j f =>
    obtain ⟨s, hs, rfl⟩ := List.mem_map.1 hr
    have hforward : n.Forwards i j := ⟨f, List.mem_of_getElem? (List.mem_zipIdx_iff_getElem?.1 hp)⟩
    have hnot : s.stop ≠ .entry i := by
      intro hstop
      rcases (isRoute_of_mem_survey hs).reaches hstop with rfl | hreach
      · exact h _ (.single hforward)
      · exact h i (.trans (.single hforward) hreach)
    unfold Route.arrival? Route.behind
    cases hstop : s.stop with
    | entry x =>
      have hx : x ≠ i := fun heq => hnot (heq ▸ hstop)
      exact if_neg hx
    | outlet t => rfl

/-- The queue at the end of one emitter gets the values that come by it. -/
theorem Acyclic.queued_eq {n : Network α} (h : n.Acyclic) {emitter receiver : Nat}
    (hsink : ∀ i, (n.subscriptions i).sink = some (.queue receiver) ↔ i = emitter) (depth i : Nat)
    (v : α) :
    (n.survey depth i).filterMap (Route.queued? receiver v)
      = (n.survey depth i).filterMap (Route.arrival? emitter v) := by
  induction depth generalizing i v with
  | zero => rfl
  | succ depth ih =>
    have hobserver : ∀ p : Observer α × Nat,
        (p.1.routes (n.survey depth) p.2).filterMap (Route.queued? receiver v)
          = (p.1.routes (n.survey depth) p.2).filterMap (Route.arrival? emitter v) := by
      rintro ⟨o, k⟩
      cases o with
      | listener label => rfl
      | forward j f =>
        show ((n.survey depth j).map (·.behind k f)).filterMap _
          = ((n.survey depth j).map (·.behind k f)).filterMap _
        rw [List.filterMap_map, List.filterMap_map]
        exact ih j (f v)
    have hobservers : ((n.subscriptions i).onward (n.survey depth)).filterMap (Route.queued? receiver v)
        = ((n.subscriptions i).onward (n.survey depth)).filterMap (Route.arrival? emitter v) := by
      unfold Emitter.onward
      rw [List.filterMap_flatMap, List.filterMap_flatMap]
      congr 1
      funext p
      exact hobserver p
    unfold survey
    rw [List.filterMap_cons_none (f := Route.queued? receiver v) rfl, List.filterMap_append,
      hobservers]
    by_cases hi : i = emitter
    · -- the value comes by before the observers are told, and is queued after them
      subst hi
      have hnone : ((n.subscriptions i).onward (n.survey depth)).filterMap (Route.arrival? i v) = [] :=
        List.filterMap_eq_nil_iff.2 fun r hr => h.not_arrival hr v
      have hqueue : (n.subscriptions i).toSink.filterMap (Route.queued? receiver v) = [v] := by
        unfold Emitter.toSink
        rw [(hsink i).2 rfl]
        simp [Route.queued?, Route.delivery?, Sink.deliver, Delivery.queued?]
      have harrival : (n.subscriptions i).toSink.filterMap (Route.arrival? i v) = [] := by
        unfold Emitter.toSink
        cases (n.subscriptions i).sink <;> rfl
      have hentry : Route.arrival? i v ⟨[], id, .entry i⟩ = some v := if_pos rfl
      rw [List.filterMap_cons_some hentry, List.filterMap_append, hnone, hqueue, harrival]
      rfl
    -- at any other emitter the sink is not this queue, so neither side has an entry
    · have hsame : (n.subscriptions i).toSink.filterMap (Route.queued? receiver v)
          = (n.subscriptions i).toSink.filterMap (Route.arrival? emitter v) := by
        unfold Emitter.toSink
        cases hs : (n.subscriptions i).sink with
        | none => rfl
        | some s =>
          cases s with
          | listener label => rfl
          | queue x =>
            have hx : x ≠ receiver := fun heq => hi ((hsink i).1 (heq ▸ hs))
            simp [Route.queued?, Route.delivery?, Sink.deliver, Delivery.queued?, Route.arrival?, hx]
      have hentry : Route.arrival? emitter v ⟨[], id, .entry i⟩ = none := if_neg hi
      rw [List.filterMap_cons_none hentry, List.filterMap_append, hsame]

/-- A value that is lent is delivered like any other, if its copy is the value itself. -/
theorem deliveriesLent_eq (n : Network α) {copy : α → α} {v : α} (hcopy : copy v = v) (handle : Nat) :
    n.deliveriesLent copy handle v = n.deliveries handle v := by
  unfold deliveriesLent deliveries
  rw [hcopy]
  cases hsize : n.emitters.size with
  | zero =>
    have hnone : n.emitter handle = {} := subscriptions_of_le (by omega)
    rw [hnone]
    rfl
  | succ depth => rfl

end Network

end LiveGraph
