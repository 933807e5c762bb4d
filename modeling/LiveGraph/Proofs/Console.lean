import LiveGraph.Console
import LiveGraph.Proofs.Graph.Atomicity
import LiveGraph.Proofs.Graph.Bookkeeping
import LiveGraph.Proofs.Store.Capacity
import LiveGraph.Proofs.Store.Safety

/-!
# What the console makes of its input

Whatever the lines of its input are, and however the numbers in them are read, the console never asks
its store for what the store cannot give, as long as there is memory for the nodes. A command is rejected
before anything has changed.

A command ends in one of three ways (`Reply`): it is rejected, there is no memory for a further node, or it
is carried out. In each of them the store stays usable: its parts fit each other, and each slot that was
handed out is free or live.
-/

namespace LiveGraph

namespace Console

/-! ## Usable stores -/

/-- A store of the console, with at most `n` slots: each of them is free or live. -/
structure Usable (n : Nat) (s : NodeTable) : Prop where
  wellFormed : s.WellFormed
  tidy : s.Tidy
  snug : Store.Snug s.len s.capacity
  len_le : s.len ≤ n

/-- There is no memory for one slot more. -/
def Exhausted (s : NodeTable) : Prop :=
  arrayLimit ≤ s.grownCapacity (s.len + 1) * Record.sideSize NodeRecord

/-- The table is empty at the start. -/
theorem usable_start : Usable 0 { config } where
  wellFormed := Store.wellFormed_empty (by decide)
  tidy := Store.tidy_empty config
  snug := Store.snug_zero
  len_le := Nat.le_refl 0

theorem Usable.mono {n m : Nat} {s : NodeTable} (h : Usable n s) (hnm : n ≤ m) : Usable m s :=
  { h with len_le := Nat.le_trans h.len_le hnm }

/-- There is memory for very many nodes. -/
theorem Usable.le_of_exhausted {n : Nat} {s : NodeTable} (h : Usable n s) (hfull : Exhausted s) :
    Nat.pow 2 57 ≤ n := by
  have hsize : Record.sideSize NodeRecord = 32 := rfl
  have hlimit : arrayLimit = 64 * Nat.pow 2 57 := by decide
  have hfits := h.wellFormed.fits.fits
  have hlen := h.len_le
  unfold Exhausted at hfull
  rw [hsize] at hfull hfits
  by_cases hroom : s.len + 1 ≤ s.capacity
  · -- there is room already
    have hsame : s.grownCapacity (s.len + 1) = s.capacity := by
      rw [Store.grownCapacity, Nat.max_eq_left (by omega), Store.doubled, if_neg (by omega)]
    omega
  · by_cases hmany : s.len + 1 ≤ Nat.pow 2 57
    · have hneeded : s.len + 1 ≤ Nat.pow 2 63 := Nat.le_trans hmany (by decide)
      have hsnug := h.snug.grow (Nat.lt_of_not_le hroom) hneeded
      unfold Store.Snug at hsnug
      rw [if_neg (by omega)] at hsnug
      have hpower : s.grownCapacity (s.len + 1) ≤ Nat.pow 2 57 := hsnug.least 57 hmany
      omega
    · omega

/-! ## Events -/

/-- All events can be shown. -/
def Described (events : Array Event) : Prop := ∀ e ∈ events, ∃ text, describeEvent e = .ok text

theorem described_empty : Described #[] := fun _ he => absurd he (Array.not_mem_empty _)

/-- A node is read from every slot of a sound snapshot of node records. -/
theorem readNode_of_sound {buffer : Snapshot} (h : buffer.Sound)
    (hsize : buffer.recordSize = Record.size NodeRecord) {slot : Nat} (hslot : slot < buffer.capacity) :
    ∃ r, readNode buffer slot = .ok r := by
  have hwindow : (buffer.window slot (slot + 1)).size = Record.size NodeRecord := by
    rw [Snapshot.size_window_slot, hsize]
  refine ⟨Record.decode (buffer.window slot (slot + 1)).toList, ?_⟩
  unfold readNode
  rw [h.slotBytes_eq hslot]
  simp [hwindow, bind, Except.bind, pure, Except.pure]

/-- What a store publishes can be shown: no event asks for a slot that its snapshot does not have. -/
theorem described_outcome {s s' : NodeTable} {o : Store.Operation NodeRecord NodeData}
    {d : Option (Store.Deed NodeRecord)} {new : List Event} (hout : s.Outcome o d new s')
    (h : s.WellFormed) : Described new.toArray := by
  intro e he
  rw [List.mem_toArray] at he
  cases hout with
  -- the size of a new baseline in bytes is a size
  | @grown count _ _ _ hfits =>
    rw [List.mem_singleton] at he
    have hlimit : s.grownCapacity (s.len + count) * Record.size NodeRecord < sizeLimit :=
      Nat.lt_trans hfits.bytes_lt (by decide)
    have hbytes := Snapshot.product_eq_ok (Nat.le_refl _) hlimit
    rw [he]
    exact ⟨_, congrArg (· >>= _) hbytes⟩
  | published =>
    obtain ⟨start, stop, hup, hlt, hcap⟩ := h.isUpdate_of_mem he
    -- a changed range is shown by its bounds, and a changed slot with its node
    rcases hup with rfl | ⟨rfl, rfl⟩
    · exact ⟨_, rfl⟩
    · obtain ⟨r, hr⟩ := readNode_of_sound h.sound_image rfl (Nat.lt_of_lt_of_le hlt hcap)
      exact ⟨_, congrArg (· >>= _) hr⟩
  | _ => exact absurd he List.not_mem_nil

theorem eventLines_of_described {events : Array Event} (h : Described events) :
    ∃ shown, eventLines events = .ok shown := by
  unfold eventLines Described at *
  simp only [← Array.mem_toList_iff] at h
  generalize events.toList = es at h ⊢
  induction es with
  | nil => exact ⟨[], rfl⟩
  | cons e es ih =>
    obtain ⟨text, htext⟩ := h e List.mem_cons_self
    obtain ⟨shown, hshown⟩ := ih fun e' he' => h e' (List.mem_cons_of_mem e he')
    refine ⟨.output ("  -> " ++ text) :: shown, ?_⟩
    rw [List.mapM_cons, htext, hshown]
    rfl

/-! ## Reading arguments -/

/-- What is read from the first word. -/
def first? {α : Type} (read? : String → Option α) (words : List String) : Option α :=
  words.head?.bind read?

section

variable {α : Type} {read? : String → Option α} {words : List String}

/-- An argument that can be read is taken from the words. -/
theorem argument_of_some {a : α} (h : first? read? words = some a) (t : Tracked NodeTable) :
    argument read? words t = .ok (a, words.tail) t := by
  cases words with
  | nil => cases h
  | cons word rest =>
    have hread : read? word = some a := h
    rw [argument, hread]
    rfl

/-- An argument that cannot be read is an error, and no fault. -/
theorem argument_of_none (h : first? read? words = none) (t : Tracked NodeTable) :
    ∃ e, argument read? words t = .error (.error e) t := by
  cases words with
  | nil => exact ⟨.missingArgument, rfl⟩
  | cons word rest =>
    have hread : read? word = none := h
    rw [argument, hread]
    exact ⟨.invalidArgument word, rfl⟩

end

/-- A position is read, or the command is rejected; nothing else happens. -/
theorem position_cases (reader : NumberReader) (words : List String) (t : Tracked NodeTable) :
    (∃ e, position reader words t = .error (.error e) t) ∨
      ∃ pos, position reader words t = .ok pos t := by
  unfold position
  cases hx : first? reader.coordinate? words with
  | none =>
    obtain ⟨e, he⟩ := argument_of_none hx t
    exact .inl ⟨e, Edit.bind_of_error he⟩
  | some x =>
    rw [Edit.bind_of_ok (argument_of_some hx t)]
    dsimp only
    cases hy : first? reader.coordinate? words.tail with
    | none =>
      obtain ⟨e, he⟩ := argument_of_none hy t
      exact .inl ⟨e, Edit.bind_of_error he⟩
    | some y =>
      rw [Edit.bind_of_ok (argument_of_some hy t)]
      exact .inr ⟨⟨x, y⟩, rfl⟩

theorem ask_of_ok {α : Type} {edit : Edit Fault NodeTable α} {t t' : Tracked NodeTable} {a : α}
    (h : edit t = .ok a t') : ask edit t = .ok a t' := by
  rw [ask, h]

/-- A fault of the table is a fault of the command. -/
theorem ask_of_error {α : Type} {edit : Edit Fault NodeTable α} {t t' : Tracked NodeTable} {f : Fault}
    (h : edit t = .error f t') : ask edit t = .error (.fault f) t' := by
  rw [ask, h]

/-! ## How commands end -/

/-- How a command on a store ends: it is rejected, or there is no memory for it, and then nothing has
happened; or it is carried out, with an answer and a store of which something is known. -/
inductive Reply {α : Type} (s : NodeTable) (Done : α → NodeTable → Prop) :
    EStateM.Result (Failure CommandError) (Tracked NodeTable) α → Prop
  | rejected (e : CommandError) : Reply s Done (.error (.error e) ⟨s, #[]⟩)
  | exhausted (hfull : Exhausted s) : Reply s Done (.error (.fault .overflow) ⟨s, #[]⟩)
  | done {a : α} {s' : NodeTable} {events : Array Event} (hs' : Usable (s.len + 1) s')
      (hevents : Described events) (hdone : Done a s') : Reply s Done (.ok a ⟨s', events⟩)

/-- A slot more, at most, and what was published along with it. -/
theorem outcome_of_add {s s' : NodeTable} {slot : Nat} {events : Array Event} (h : s.WellFormed)
    (hadd : Store.add 1 ⟨s, #[]⟩ = .ok slot ⟨s', events⟩) :
    ∃ d new, events = new.toArray ∧ s.Outcome (.call (.add 1)) d new s' := by
  obtain ⟨new, s₁, hafter, hout⟩ := h.outcome (.call (.add 1)) #[]
  have hsame : (Store.Operation.call (.add 1)).edit.after ⟨s, #[]⟩ = ⟨s', events⟩ :=
    (Edit.after_discard _ _).trans (Edit.after_of_ok hadd)
  rw [hsame, Array.empty_append] at hafter
  cases hafter
  exact ⟨_, new, rfl, hout⟩

theorem len_of_outcome_add {s s' : NodeTable} {d : Option (Store.Deed NodeRecord)} {new : List Event}
    (hout : s.Outcome (.call (.add 1)) d new s') : s'.len ≤ s.len + 1 := by
  cases hout with
  | refused _ => exact Nat.le_succ _
  | recycled _ => exact Nat.le_succ _
  | extended _ _ _ => exact Nat.le_refl _
  | grown _ _ _ _ => exact Nat.le_refl _

/-- A new slot that is written is live, and the store is tidy again. -/
theorem Usable.write_fresh {n : Nat} {s s₀ : NodeTable} {slot : Nat} (h : Usable n s)
    (hfresh : s.Fresh slot s₀) (hsnug : Store.Snug s₀.len s₀.capacity) (hlen : s₀.len ≤ s.len + 1)
    {r : NodeRecord} (hr : Record.isDeleted r = false) :
    Usable (s.len + 1) ((s₀.put slot (Record.encode r)).mark slot) ∧
      ((s₀.put slot (Record.encode r)).mark slot).isLive slot = true := by
  have hlive := hfresh.wellFormed.isLive_write hfresh.lt_len hfresh.inUse hr
  refine ⟨⟨(hfresh.wellFormed.put _ _).mark hfresh.lt_len, fun x hx => ?_, hsnug, hlen⟩,
    (hlive slot).2 (.inl rfl)⟩
  rw [hlive]
  by_cases hxs : x = slot
  · exact .inl hxs
  · rw [hfresh.live x hxs]
    exact .inr (h.tidy x ((hfresh.taken x hxs).1 hx))

theorem isDeleted_newNode (pos : Point) : Record.isDeleted (newNode pos) = false := by
  show ((0 : UInt8) &&& deletedFlag != 0) = false
  decide

/-- How the command to add a node ends. -/
theorem add_reply {n : Nat} {s : NodeTable} (h : Usable n s) (reader : NumberReader)
    (words : List String) :
    Reply s (fun slot s' => s'.isLive slot = true) (add reader words ⟨s, #[]⟩) := by
  unfold add
  rcases position_cases reader words ⟨s, #[]⟩ with ⟨e, hpos⟩ | ⟨pos, hpos⟩
  · rw [Edit.bind_of_error hpos]
    exact .rejected e
  rw [Edit.bind_of_ok hpos]
  rcases h.wellFormed.add_one_cases #[] with ⟨f, hadd⟩ | ⟨slot, s₀, events, hadd, hfresh⟩
  · obtain ⟨hfull, rfl⟩ := h.wellFormed.addFault_one hadd
    rw [Edit.bind_of_error (ask_of_error hadd)]
    exact .exhausted hfull
  · -- the slot is neither free nor beyond the others, so it can be written
    obtain ⟨d, new, rfl, hout⟩ := outcome_of_add h.wellFormed hadd
    have hset := hfresh.wellFormed.set_some (newNode pos) hfresh.lt_len hfresh.inUse new.toArray
    obtain ⟨hs', hlive⟩ := h.write_fresh hfresh (hout.snug h.snug) (len_of_outcome_add hout)
      (isDeleted_newNode pos)
    rw [Edit.bind_of_ok (ask_of_ok hadd), Edit.bind_of_ok (ask_of_ok hset)]
    exact .done hs' (described_outcome hout h.wellFormed) hlive

/-- A node is moved only if it is live, and it stays so. -/
theorem move_reply {n : Nat} {s : NodeTable} (h : Usable n s) (reader : NumberReader)
    (words : List String) :
    Reply s (fun _ s' => ∃ slot, first? reader.slot? words = some slot ∧ s.isLive slot = true ∧
      s'.isLive slot = true) (move reader words ⟨s, #[]⟩) := by
  unfold move
  cases hread : first? reader.slot? words with
  | none =>
    obtain ⟨e, he⟩ := argument_of_none hread ⟨s, #[]⟩
    rw [Edit.bind_of_error he]
    exact .rejected e
  | some slot =>
    rw [Edit.bind_of_ok (argument_of_some hread _)]
    dsimp only
    rw [Edit.read_bind]
    cases hlive : s.isLive slot with
    | false => exact .rejected (.notLive slot)
    | true =>
      have hrecord := h.wellFormed.record_eq (h.wellFormed.lt_of_isLive hlive)
      -- a live slot has a record to be changed
      have hask : ask (do Edit.ofExcept ((← Edit.read).record slot)) ⟨s, #[]⟩
          = .ok (s.recordAt slot) ⟨s, #[]⟩ := by
        apply ask_of_ok
        rw [Edit.read_bind, hrecord]
        rfl
      show Reply s _ ((ask (do Edit.ofExcept ((← Edit.read).record slot)) >>= fun r =>
        position reader words.tail >>= fun pos => ask (Store.set slot (some { r with pos }))) ⟨s, #[]⟩)
      rw [Edit.bind_of_ok hask]
      rcases position_cases reader words.tail ⟨s, #[]⟩ with ⟨e, hpos⟩ | ⟨pos, hpos⟩
      · rw [Edit.bind_of_error hpos]
        exact .rejected e
      rw [Edit.bind_of_ok hpos]
      -- a position has no part in the marks of a record
      have hr : Record.isDeleted { s.recordAt slot with pos } = false :=
        ((h.wellFormed.isLive_iff slot).1 hlive).2.2
      obtain ⟨s', hset, hs'⟩ := h.wellFormed.rewrite hlive hr #[]
      have hlen : s'.len = s.len := (congrArg Store.len hs'.marked :)
      rw [ask_of_ok hset]
      refine .done ⟨hs'.wellFormed, hs'.tidy h.tidy, ?_, ?_⟩ described_empty ⟨slot, rfl, hlive, ?_⟩
      · rw [hlen, hs'.marked.capacity]
        exact h.snug
      · omega
      · rw [hs'.live, hlive]

/-- A slot that was handed out is deleted, whether it is live or not. -/
theorem delete_of_lt {n : Nat} {s : NodeTable} (h : Usable n s) {reader : NumberReader}
    {words : List String} {slot : Nat} (hread : first? reader.slot? words = some slot)
    (hlt : slot < s.len) :
    ∃ s', delete reader words ⟨s, #[]⟩ = .ok () ⟨s', #[]⟩ ∧ s'.isLive slot = false ∧
      Usable (s.len + 1) s' := by
  obtain ⟨s', hset, hs'⟩ := h.wellFormed.erase hlt #[]
  have hsnug : Store.Snug s'.len s'.capacity := by
    -- the same store once more, as the outcome of an operation
    have hset' := h.wellFormed.set_none hlt #[]
    rw [hset] at hset'
    cases hset'
    exact (Store.Outcome.deleted slot hlt).snug h.snug
  refine ⟨s', ?_, ?_, hs'.wellFormed, hs'.tidy h.tidy, hsnug, ?_⟩
  · unfold delete
    rw [Edit.bind_of_ok (argument_of_some hread _)]
    dsimp only
    rw [Edit.read_bind, if_neg (Nat.not_le_of_lt hlt)]
    exact ask_of_ok hset
  · rw [← Bool.not_eq_true, hs'.live]
    exact fun hlive => hlive.2 (List.mem_singleton.2 rfl)
  · rw [hs'.len]
    exact Nat.le_succ _

/-- Anything else is not deleted. -/
theorem delete_of_not_lt (s : NodeTable) {reader : NumberReader} {words : List String}
    (h : ∀ slot, first? reader.slot? words = some slot → s.len ≤ slot) :
    ∃ e, delete reader words ⟨s, #[]⟩ = .error (.error e) ⟨s, #[]⟩ := by
  unfold delete
  cases hread : first? reader.slot? words with
  | none =>
    obtain ⟨e, he⟩ := argument_of_none hread ⟨s, #[]⟩
    exact ⟨e, Edit.bind_of_error he⟩
  | some slot =>
    rw [Edit.bind_of_ok (argument_of_some hread _)]
    dsimp only
    rw [Edit.read_bind, if_pos (h slot hread)]
    exact ⟨.neverAllocated slot, rfl⟩

/-- How the command to delete a node ends. -/
theorem delete_reply {n : Nat} {s : NodeTable} (h : Usable n s) (reader : NumberReader)
    (words : List String) :
    Reply s (fun _ s' => ∃ slot, first? reader.slot? words = some slot ∧ slot < s.len ∧
      s'.isLive slot = false) (delete reader words ⟨s, #[]⟩) := by
  by_cases hslot : ∃ slot, first? reader.slot? words = some slot ∧ slot < s.len
  · obtain ⟨slot, hread, hlt⟩ := hslot
    obtain ⟨s', heq, hdead, hs'⟩ := delete_of_lt h hread hlt
    rw [heq]
    exact .done hs' described_empty ⟨slot, hread, hlt, hdead⟩
  · obtain ⟨e, heq⟩ := delete_of_not_lt s fun slot hread =>
      Nat.le_of_not_lt fun hlt => hslot ⟨slot, hread, hlt⟩
    rw [heq]
    exact .rejected e

/-- A flush is always carried out. -/
theorem flush_reply {n : Nat} {s : NodeTable} (h : Usable n s) :
    Reply s (fun _ _ => True) (ask Store.flush ⟨s, #[]⟩) := by
  have hflush := h.wellFormed.flush_eq #[]
  rw [Array.empty_append] at hflush
  have htidy : s.flushed.Tidy := h.tidy
  rw [ask_of_ok hflush]
  exact .done ⟨h.wellFormed.flushed, htidy, h.snug, Nat.le_succ _⟩
    (described_outcome .published h.wellFormed) trivial

/-- A command that only says something more ends in the same way. -/
theorem Reply.map {α β : Type} {s : NodeTable} {Done : α → NodeTable → Prop}
    {Done' : β → NodeTable → Prop} {work : Work α} (h : Reply s Done (work ⟨s, #[]⟩)) (say : α → β)
    (hdone : ∀ a s', Done a s' → Done' (say a) s') :
    Reply s Done' ((work >>= fun a => pure (say a)) ⟨s, #[]⟩) := by
  generalize hresult : work ⟨s, #[]⟩ = result at h
  cases h with
  | rejected e =>
    rw [Edit.bind_of_error hresult]
    exact .rejected e
  | exhausted hfull =>
    rw [Edit.bind_of_error hresult]
    exact .exhausted hfull
  | done hs' hevents ha =>
    rw [Edit.bind_of_ok hresult]
    exact .done hs' hevents (hdone _ _ ha)

/-- What is known of a command that was carried out: the node that was added is live, a node that was
moved was live, and a slot that was deleted had been handed out and is not live. -/
def Done (reader : NumberReader) (s : NodeTable) (line : String) (told : Option String)
    (s' : NodeTable) : Prop :=
  match Text.words line with
  | "add" :: _ => ∃ slot, told = some s!"added slot {slot}" ∧ s'.isLive slot = true
  | "set" :: words => ∃ slot, first? reader.slot? words = some slot ∧ s.isLive slot = true ∧
      s'.isLive slot = true
  | "del" :: words => ∃ slot, first? reader.slot? words = some slot ∧ slot < s.len ∧
      s'.isLive slot = false
  | _ => True

/-- How any command ends: one case for each kind of command, and unknown and empty ones. -/
theorem carryOut_reply {n : Nat} {s : NodeTable} (h : Usable n s) (reader : NumberReader)
    (line : String) : Reply s (Done reader s line) (carryOut reader line ⟨s, #[]⟩) := by
  -- the command is split before it is applied to the store
  generalize hwork : carryOut reader line = work
  unfold carryOut at hwork
  split at hwork
  all_goals subst hwork
  · next words hwords =>
    refine (add_reply h reader words).map _ fun slot s' hlive => ?_
    rw [Done, hwords]
    exact ⟨slot, rfl, hlive⟩
  · next words hwords =>
    refine (move_reply h reader words).map _ fun _ s' hmoved => ?_
    rw [Done, hwords]
    exact hmoved
  · next words hwords =>
    refine (delete_reply h reader words).map _ fun _ s' hdeleted => ?_
    rw [Done, hwords]
    exact hdeleted
  · next words hwords =>
    refine (flush_reply h).map _ fun _ _ _ => ?_
    rw [Done, hwords]
    trivial
  · next word words _ _ _ _ hwords => exact .rejected (.unknownCommand word)
  · next hwords =>
    refine .done { h with len_le := Nat.le_succ _ } described_empty ?_
    rw [Done, hwords]
    trivial

/-! ## Whole inputs -/

/-- What is written for a command can be written, and the store stays usable; unless there is no memory. -/
theorem respond_of_reply {n : Nat} {s : NodeTable} (h : Usable n s)
    {Done : Option String → NodeTable → Prop} {work : Work (Option String)}
    (hreply : Reply s Done (work ⟨s, #[]⟩)) :
    Exhausted s ∧ respond work s = .error .overflow ∨
      ∃ shown s', respond work s = .ok (shown, s') ∧ Usable (s.len + 1) s' := by
  unfold respond
  rw [Edit.perform]
  generalize work ⟨s, #[]⟩ = result at hreply ⊢
  cases hreply with
  | rejected e => exact .inr ⟨_, s, rfl, { h with len_le := Nat.le_succ _ }⟩
  | exhausted hfull => exact .inl ⟨hfull, rfl⟩
  | @done told s' events hs' hevents _ =>
    obtain ⟨shown, hshown⟩ := eventLines_of_described hevents
    dsimp only
    rw [hshown]
    exact .inr ⟨_, s', rfl, hs'⟩

/-- What the console writes for some lines, and the store after them. -/
def feed (reader : NumberReader) : List String → NodeTable → Except Fault (List ConsoleLine × NodeTable)
  | [], s => .ok ([], s)
  | line :: lines, s => do
    let (shown, s) ← takeLine reader line s
    let (more, s) ← feed reader lines s
    return (shown ++ more, s)

/-- The console gets through its input, unless there are so many lines that their nodes need more memory
than there can be. -/
theorem feed_cases (reader : NumberReader) (lines : List String) {n : Nat} {s : NodeTable}
    (h : Usable n s) :
    feed reader lines s = .error .overflow ∧ Nat.pow 2 57 < n + lines.length ∨
      ∃ shown s', feed reader lines s = .ok (shown, s') ∧ Usable (n + lines.length) s' := by
  -- each line brings one slot at most, so the bound grows by one with it
  induction lines generalizing n s with
  | nil => exact .inr ⟨[], s, rfl, h⟩
  | cons line lines ih =>
    unfold feed takeLine
    rcases respond_of_reply h (carryOut_reply h reader line) with ⟨hfull, heq⟩ | ⟨shown, s₁, heq, hs₁⟩
    · have hn := h.le_of_exhausted hfull
      rw [heq, List.length_cons]
      exact .inl ⟨rfl, by omega⟩
    · have hnext : Usable (n + 1) s₁ := hs₁.mono (Nat.add_le_add_right h.len_le 1)
      have hlength : n + (line :: lines).length = n + 1 + lines.length := by
        rw [List.length_cons]
        omega
      rw [heq, hlength]
      rcases ih hnext with ⟨herror, hmany⟩ | ⟨more, s', hok, hs'⟩
      · refine .inl ⟨?_, hmany⟩
        show (feed reader lines s₁ >>= _) = _
        rw [herror]
        rfl
      · refine .inr ⟨shown ++ more, s', ?_, hs'⟩
        show (feed reader lines s₁ >>= _) = _
        rw [hok]
        rfl

/-- The input ends with its first blank line. -/
theorem converse_eq (reader : NumberReader) (lines : List String) (s : NodeTable) :
    converse reader lines s = (do
      let (shown, s') ← feed reader (lines.takeWhile fun line => !Text.isBlankLine line) s
      return shown ++ (← finish s')) := by
  -- after the last line only the end is shown
  have hend : ∀ s, finish s = (finish s >>= fun shown => pure ([] ++ shown)) := by
    intro s
    cases finish s <;> rfl
  induction lines generalizing s with
  | nil => exact hend s
  | cons line lines ih =>
    rw [converse, List.takeWhile_cons]
    cases Text.isBlankLine line with
    | true => exact hend s
    | false =>
      show (takeLine reader line s >>= _) = (takeLine reader line s >>= _) >>= _
      cases takeLine reader line s with
      | error f => rfl
      | ok answer =>
        show (converse reader lines answer.2 >>= fun more => pure (answer.1 ++ more)) = _
        rw [ih]
        show ((feed reader _ answer.2 >>= _) >>= _) = (feed reader _ answer.2 >>= _) >>= _
        cases feed reader (lines.takeWhile fun line => !Text.isBlankLine line) answer.2 with
        | error f => rfl
        | ok fed =>
          show ((finish fed.2 >>= _) >>= _) = (finish fed.2 >>= _)
          cases finish fed.2 with
          | error f => rfl
          | ok last => exact congrArg Except.ok (List.append_assoc _ _ _).symm

/-- At the end the changes are published, and all slots are counted: the live ones, and the free ones. -/
structure EndsCounted (s s' : NodeTable) : Prop where
  flush : ∃ events, Store.flush ⟨s, #[]⟩ = .ok () ⟨s', events⟩
  finish : ∃ shown, Console.finish s = .ok (shown ++ [.output (farewell s')])
  balanced : s'.liveCount + s'.freeCount = s'.len
  counted : s'.liveCount = (List.range s'.len).countP s'.isLive

/-- At the end of the input the table is flushed and its nodes are counted. -/
theorem Usable.endsCounted {n : Nat} {s : NodeTable} (h : Usable n s) : EndsCounted s s.flushed := by
  have hflush := h.wellFormed.flush_eq #[]
  rw [Array.empty_append] at hflush
  have hfree := h.wellFormed.flushed.length_free_le
  have htidy : s.flushed.Tidy := h.tidy
  have hcount := h.wellFormed.flushed.countP_add_free (p := s.flushed.isLive) fun x hx =>
    h.wellFormed.flushed.isLive_iff_not_free htidy hx
  refine ⟨⟨_, hflush⟩, ?_, ?_, ?_⟩
  · obtain ⟨shown, hshown⟩ := eventLines_of_described (described_outcome .published h.wellFormed)
    have hwork : (do ask Store.flush; return none : Work (Option String)) ⟨s, #[]⟩
        = .ok none ⟨s.flushed, s.flushEvents.toArray⟩ := Edit.bind_of_ok (ask_of_ok hflush)
    have hrespond : respond (do ask Store.flush; return none) s = .ok (shown ++ [], s.flushed) := by
      rw [respond, Edit.perform_of_ok hwork]
      dsimp only
      rw [hshown]
      rfl
    exact ⟨_, congrArg (· >>= _) hrespond⟩
  · rw [Store.liveCount, Store.freeCount]
    omega
  · rw [Store.liveCount]
    omega

/-- The new store of the console. -/
theorem new_config : (Store.new config : Except Fault NodeTable) = .ok { config } :=
  Store.new_eq_ok_iff.2 ⟨by decide, rfl⟩

/-- The console comes to its end if it gets through the lines in front of the first blank one. -/
theorem run_cases (reader : NumberReader) (lines : List String) :
    (∃ written, run reader lines = .ok written) ∨
      run reader lines = .error .overflow ∧ Nat.pow 2 57 < lines.length := by
  have hrun : run reader lines
      = (converse reader lines { config } >>= fun shown => pure (.output greeting :: shown)) := by
    rw [run, new_config]
    rfl
  rw [hrun, converse_eq]
  have hfront : (lines.takeWhile fun line => !Text.isBlankLine line).length ≤ lines.length :=
    (List.takeWhile_sublist _).length_le
  generalize lines.takeWhile (fun line => !Text.isBlankLine line) = front at hfront ⊢
  rcases feed_cases reader front usable_start with ⟨herror, hmany⟩ | ⟨shown, s, hok, hs⟩
  · rw [herror]
    exact .inr ⟨rfl, by omega⟩
  · obtain ⟨last, hlast⟩ := hs.endsCounted.finish
    rw [hok]
    show (∃ written, ((finish s >>= _) >>= _) = Except.ok written) ∨ _
    rw [hlast]
    exact .inl ⟨_, rfl⟩

/-- What the console makes of the next line. -/
structure Orderly (reader : NumberReader) (s : NodeTable) (line : String) : Prop where
  /-- The command is rejected, fails for lack of memory, or is carried out. -/
  reply : Reply s (Done reader s line) (carryOut reader line ⟨s, #[]⟩)
  /-- A slot is deleted exactly if it was handed out. -/
  deletes : ∀ words, Text.words line = "del" :: words →
    ((∃ t, carryOut reader line ⟨s, #[]⟩ = .ok none t) ↔
      ∃ slot, first? reader.slot? words = some slot ∧ slot < s.len)

/-- A table in use answers every line in order. -/
theorem Usable.orderly {n : Nat} {s : NodeTable} (h : Usable n s) (reader : NumberReader)
    (line : String) : Orderly reader s line := by
  have hreply := carryOut_reply h reader line
  refine ⟨hreply, fun words hwords => ⟨?_, ?_⟩⟩
  · -- a command that was carried out found a slot that had been handed out
    rintro ⟨t, ht⟩
    rw [ht] at hreply
    cases hreply with
    | done _ _ hdone =>
      rw [Done, hwords] at hdone
      obtain ⟨slot, hread, hlt, -⟩ := hdone
      exact ⟨slot, hread, hlt⟩
  · rintro ⟨slot, hread, hlt⟩
    obtain ⟨s', heq, -⟩ := delete_of_lt h hread hlt
    refine ⟨⟨s', #[]⟩, ?_⟩
    unfold carryOut
    rw [hwords]
    exact Edit.bind_of_ok heq

/-- The console never faults, whatever the lines of its input are and however numbers are read, unless the
lines are so many that their nodes need more memory than there can be. After any lines its store is safe
to use, also between the two parts of adding a node; the next line is rejected without a trace, or carried
out; and the end finds all slots counted. -/
theorem console_never_faults (reader : NumberReader) (lines : List String) :
    ((∃ written, run reader lines = .ok written) ∨
      run reader lines = .error .overflow ∧ Nat.pow 2 57 < lines.length) ∧
      ∃ s₀ : NodeTable, Store.new config = .ok s₀ ∧
        ((∃ shown s, feed reader lines s₀ = .ok (shown, s) ∧ Store.Safe ⟨s, #[]⟩ ∧
            (∀ slot t, Store.add 1 ⟨s, #[]⟩ = .ok slot t → Store.Safe t) ∧
            (∀ line, Orderly reader s line) ∧ ∃ s', EndsCounted s s') ∨
          feed reader lines s₀ = .error .overflow ∧ Nat.pow 2 57 < lines.length) := by
  refine ⟨run_cases reader lines, { config }, new_config, ?_⟩
  rcases feed_cases reader lines usable_start with ⟨herror, hmany⟩ | ⟨shown, s, hok, h⟩
  · exact .inr ⟨herror, by omega⟩
  · refine .inl ⟨shown, s, hok, h.wellFormed.safe #[], fun slot t hadd => ?_, h.orderly reader, _,
      h.endsCounted⟩
    obtain ⟨d, new, -, hout⟩ := outcome_of_add h.wellFormed hadd
    exact (hout.step.wellFormed h.wellFormed).safe t.events

end Console

end LiveGraph
