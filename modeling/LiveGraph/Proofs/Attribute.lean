import LiveGraph.Attribute.Set

/-!
# Which slots have values

The values of a map, a column and a table after one was set or removed, and the slots that have a value
in some table of an attribute set. Only setting a value gives one to a slot, and then to that slot.
-/

namespace LiveGraph

namespace SlotMap

variable {α : Type}

/-- An inserted entry is found at its slot, and the others where they were. -/
theorem find?_insertEntry (slot : Nat) (a : α) (l : List (Nat × α)) (x : Nat) :
    (insertEntry slot a l).find? (·.1 == x)
      = if x = slot then some (slot, a) else l.find? (·.1 == x) := by
  -- the place of an entry is in front of the first larger slot, or instead of an equal one
  induction l with
  | nil =>
    unfold insertEntry
    by_cases hx : x = slot
    · simp [hx]
    · simp [hx, Ne.symm hx]
  | cons e rest ih =>
    obtain ⟨k, b⟩ := e
    unfold insertEntry
    by_cases hx : x = slot
    · subst hx
      by_cases hlt : x < k
      · simp [hlt]
      · by_cases heq : x = k
        · simp [heq]
        · simp [hlt, heq, Ne.symm heq, ih]
    · by_cases hlt : slot < k
      · simp [hlt, hx, Ne.symm hx]
      · by_cases heq : slot = k
        · -- the entry that goes was for another slot
          have hk : k ≠ x := fun h => hx (h ▸ heq.symm)
          simp [heq, hk, Ne.symm hk]
        · rw [if_neg hlt, if_neg heq, if_neg hx, List.find?_cons, List.find?_cons, ih, if_neg hx]

/-- A map has the new value at its slot, and the old ones elsewhere. -/
theorem get?_insert (m : SlotMap α) (slot : Nat) (a : α) (x : Nat) :
    (m.insert slot a).get? x = if x = slot then some a else m.get? x := by
  unfold get? insert
  rw [find?_insertEntry]
  split
  · rfl
  · rfl

/-- A map has no value at an erased slot, and the old ones elsewhere. -/
theorem get?_erase (m : SlotMap α) (slot x : Nat) :
    (m.erase slot).get? x = if x = slot then none else m.get? x := by
  unfold get? erase
  dsimp only
  induction m.entries with
  | nil => simp
  | cons e rest ih =>
    by_cases he : e.1 = slot
    · -- the entry that goes is the one for the slot
      have hother : x ≠ slot → ¬ e.1 = x := fun hx hex => hx (hex.symm.trans he)
      rw [List.filter_cons_of_neg (by simp [he]), ih]
      by_cases hx : x = slot
      · rw [if_pos hx, if_pos hx]
      · simp [hx, hother hx]
    · rw [List.filter_cons_of_pos (by simp [he]), List.find?_cons, List.find?_cons]
      by_cases hex : e.1 = x
      · have hx : x ≠ slot := fun hx => he (hex.trans hx)
        simp [hex, hx]
      · simp only [beq_false_of_ne hex]
        exact ih

end SlotMap

namespace Column

theorem get?_empty (type : AttributeType) (x : Nat) : (empty type).get? x = none := by
  cases type <;> rfl

/-- The same for a column, if the value has its type. -/
theorem get?_insert? {c c' : Column} {slot : Nat} {v : AttributeValue}
    (h : c.insert? slot v = some c') (x : Nat) :
    c'.get? x = if x = slot then some v else c.get? x := by
  revert h
  fun_cases insert? c slot v
  all_goals
    intro h
    cases h
  all_goals
    simp only [get?, SlotMap.get?_insert]
    split <;> rfl

/-- The same for a column. -/
theorem get?_erase (c : Column) (slot x : Nat) :
    (c.erase slot).get? x = if x = slot then none else c.get? x := by
  cases c
  all_goals
    simp only [erase, get?, SlotMap.get?_erase]
    split <;> rfl

end Column

namespace AttributeTable

/-- The same for a table. -/
theorem get?_set {t t' : AttributeTable} {slot : Nat} {v : AttributeValue}
    (h : t.set slot v = .ok t') (x : Nat) :
    t'.get? x = if x = slot then some v else t.get? x := by
  rw [set] at h
  split at h
  · next column hcolumn =>
    cases h
    exact Column.get?_insert? hcolumn x
  · cases h

theorem get?_erase (t : AttributeTable) (slot x : Nat) :
    (t.erase slot).get? x = if x = slot then none else t.get? x :=
  Column.get?_erase t.column slot x

end AttributeTable

namespace AttributeSet

/-- Some table has a value at the slot. -/
def HasValue (s : AttributeSet) (x : Nat) : Prop := ∃ t ∈ s.tables, (t.get? x).isSome = true

theorem hasValue_of_get? {s : AttributeSet} {t : AttributeTable} (ht : t ∈ s.tables) {x : Nat}
    {v : AttributeValue} (hv : t.get? x = some v) : s.HasValue x :=
  ⟨t, ht, Option.isSome_of_eq_some hv⟩

/-- A slot without values is empty in every table. -/
theorem get?_of_not_hasValue {s : AttributeSet} {x : Nat} (h : ¬ s.HasValue x) :
    ∀ t ∈ s.tables, t.get? x = none := by
  intro t ht
  rw [← Option.not_isSome_iff_eq_none]
  exact fun hvalue => h ⟨t, ht, hvalue⟩

theorem not_hasValue_empty (x : Nat) : ¬ ({} : AttributeSet).HasValue x := by
  rintro ⟨t, ht, -⟩
  exact absurd ht List.not_mem_nil

/-! ## Finding tables -/

/-- A table is found under its name, at its position. -/
theorem find?_eq_some_iff {s : AttributeSet} {name : String} {i : Nat} {t : AttributeTable} :
    s.find? name = some (i, t) ↔ s.tables[i]? = some t ∧ t.name = name := by
  -- the index of names agrees with the positions of the tables
  have hindex := s.indexed name i
  rw [List.getElem?_map] at hindex
  unfold find?
  constructor
  · intro h
    obtain ⟨k, hk, h⟩ := Option.bind_eq_some_iff.1 h
    obtain ⟨u, hu, h⟩ := Option.bind_eq_some_iff.1 h
    cases h
    have hname := hindex.1 hk
    rw [hu] at hname
    exact ⟨hu, Option.some.inj hname⟩
  · rintro ⟨ht, hname⟩
    rw [ht] at hindex
    rw [hindex.2 (congrArg some hname)]
    show (s.tables[i]?.bind fun t => some (i, t)) = some (i, t)
    rw [ht]
    rfl

/-- A table is not found exactly if there is none of the name. -/
theorem find?_eq_none_iff {s : AttributeSet} {name : String} :
    s.find? name = none ↔ name ∉ s.names := by
  rw [Option.eq_none_iff_forall_ne_some, names, List.mem_map]
  constructor
  · rintro h ⟨t, ht, hname⟩
    obtain ⟨i, hi⟩ := List.mem_iff_getElem?.1 ht
    exact h (i, t) (find?_eq_some_iff.2 ⟨hi, hname⟩)
  · rintro h ⟨i, t⟩ hfind
    obtain ⟨hi, hname⟩ := find?_eq_some_iff.1 hfind
    exact h ⟨t, List.mem_iff_getElem?.2 ⟨i, hi⟩, hname⟩

/-- The table of a name is the one with that name. -/
theorem table?_eq_some_iff {s : AttributeSet} {name : String} {t : AttributeTable} :
    s.table? name = some t ↔ t ∈ s.tables ∧ t.name = name := by
  rw [table?, Option.map_eq_some_iff, List.mem_iff_getElem?]
  constructor
  · rintro ⟨⟨i, u⟩, hfind, rfl⟩
    obtain ⟨hi, hname⟩ := find?_eq_some_iff.1 hfind
    exact ⟨⟨i, hi⟩, hname⟩
  · rintro ⟨⟨i, hi⟩, hname⟩
    exact ⟨(i, t), find?_eq_some_iff.2 ⟨hi, hname⟩, rfl⟩

/-- A table of the result was there before, or is the one that got other values. -/
theorem mem_withColumn {s : AttributeSet} {i : Nat} {column : Column} {t' : AttributeTable}
    (ht' : t' ∈ (s.withColumn i column).tables) :
    t' ∈ s.tables ∨ ∃ t, s.tables[i]? = some t ∧ t' = { t with column } := by
  obtain ⟨k, hk⟩ := List.mem_iff_getElem?.1 ht'
  rw [withColumn, List.getElem?_modify] at hk
  obtain ⟨t, ht, rfl⟩ := Option.map_eq_some_iff.1 hk
  by_cases hik : i = k
  · rw [if_pos hik, hik]
    exact .inr ⟨t, ht, rfl⟩
  · rw [if_neg hik]
    exact .inl (List.mem_iff_getElem?.2 ⟨k, ht⟩)

theorem exists_of_map_eq_ok {ε α β : Type} {g : α → β} {x : Except ε α} {b : β}
    (h : x.map g = .ok b) : ∃ a, x = .ok a ∧ g a = b := by
  cases x with
  | error e => cases h
  | ok a =>
    cases h
    exact ⟨a, rfl, rfl⟩

/-! ## Slots with values -/

/-- Setting a value gives one to its slot only. -/
theorem hasValue_set {s s' : AttributeSet} {name : String} {slot : Nat} {v : AttributeValue}
    (h : s.set name slot v = .ok s') {x : Nat} (hx : s'.HasValue x) : x = slot ∨ s.HasValue x := by
  unfold set at h
  split at h
  · next i t hfind =>
    obtain ⟨u, hset, rfl⟩ := exists_of_map_eq_ok h
    obtain ⟨t', ht', hvalue⟩ := hx
    rcases mem_withColumn ht' with hold | ⟨t₁, ht₁, rfl⟩
    · exact .inr ⟨t', hold, hvalue⟩
    · have hsame : ({ t₁ with column := u.column } : AttributeTable).get? x = u.get? x := rfl
      rw [hsame, AttributeTable.get?_set hset] at hvalue
      split at hvalue
      · next hxs => exact .inl hxs
      · exact .inr ⟨t, List.mem_iff_getElem?.2 ⟨i, (find?_eq_some_iff.1 hfind).1⟩, hvalue⟩
  · cases h

/-- Removing a value gives values to no slot. -/
theorem hasValue_remove {s s' : AttributeSet} {name : String} {slot : Nat} {v : Option AttributeValue}
    (h : s.remove name slot = .ok (v, s')) {x : Nat} (hx : s'.HasValue x) : s.HasValue x := by
  unfold remove at h
  split at h
  · next i t hfind =>
    cases h
    obtain ⟨t', ht', hvalue⟩ := hx
    -- a value found afterwards is in an untouched table, or was left in the changed one
    rcases mem_withColumn ht' with hold | ⟨t₁, ht₁, rfl⟩
    · exact ⟨t', hold, hvalue⟩
    · have hsame : ({ t₁ with column := (t.erase slot).column } : AttributeTable).get? x
          = (t.erase slot).get? x := rfl
      rw [hsame, AttributeTable.get?_erase] at hvalue
      split at hvalue
      · cases hvalue
      · exact ⟨t, List.mem_iff_getElem?.2 ⟨i, (find?_eq_some_iff.1 hfind).1⟩, hvalue⟩
  · cases h

/-- A new table has no values. -/
theorem hasValue_create {s s' : AttributeSet} {name : String} {type : AttributeType}
    (h : s.create name type = .ok s') {x : Nat} (hx : s'.HasValue x) : s.HasValue x := by
  unfold create at h
  split at h
  · cases h
    obtain ⟨t, ht, hvalue⟩ := hx
    rcases List.mem_append.1 ht with hold | hnew
    · exact ⟨t, hold, hvalue⟩
    · rw [List.mem_singleton.1 hnew, AttributeTable.get?, AttributeTable.new,
        Column.get?_empty] at hvalue
      cases hvalue
  · cases h

/-- Clearing a slot takes all its values, and no others. -/
theorem hasValue_clearSlot (s : AttributeSet) (slot x : Nat) :
    (s.clearSlot slot).HasValue x ↔ s.HasValue x ∧ x ≠ slot := by
  unfold HasValue clearSlot
  constructor
  · rintro ⟨t', ht', hvalue⟩
    obtain ⟨t, ht, rfl⟩ := List.mem_map.1 ht'
    rw [AttributeTable.get?_erase] at hvalue
    split at hvalue
    · cases hvalue
    · next hx => exact ⟨⟨t, ht, hvalue⟩, hx⟩
  · rintro ⟨⟨t, ht, hvalue⟩, hx⟩
    refine ⟨_, List.mem_map.2 ⟨t, ht, rfl⟩, ?_⟩
    rw [AttributeTable.get?_erase, if_neg hx]
    exact hvalue

/-- Clearing slots one after the other takes the values of all of them. -/
theorem hasValue_foldl_clearSlot (slots : List Nat) (s : AttributeSet) (x : Nat) :
    (slots.foldl clearSlot s).HasValue x ↔ s.HasValue x ∧ x ∉ slots := by
  induction slots generalizing s with
  | nil => simp
  | cons slot slots ih => rw [List.foldl_cons, ih, hasValue_clearSlot, List.mem_cons, not_or, and_assoc]

/-- The value of a slot in the table of a name. -/
def value? (s : AttributeSet) (name : String) (x : Nat) : Option AttributeValue :=
  (s.table? name).bind (·.get? x)

theorem table?_clearSlot (s : AttributeSet) (slot : Nat) (name : String) :
    (s.clearSlot slot).table? name = (s.table? name).map (·.erase slot) := by
  apply Option.ext
  intro t'
  rw [table?_eq_some_iff, Option.map_eq_some_iff]
  constructor
  · rintro ⟨ht', hname⟩
    obtain ⟨t, ht, rfl⟩ := List.mem_map.1 ht'
    exact ⟨t, table?_eq_some_iff.2 ⟨ht, hname⟩, rfl⟩
  · rintro ⟨t, ht, rfl⟩
    obtain ⟨hin, hname⟩ := table?_eq_some_iff.1 ht
    exact ⟨List.mem_map.2 ⟨t, hin, rfl⟩, hname⟩

/-- What a table has at the other slots stays. -/
theorem value?_clearSlot (s : AttributeSet) (slot : Nat) (name : String) (x : Nat) :
    (s.clearSlot slot).value? name x = if x = slot then none else s.value? name x := by
  have htable := s.table?_clearSlot slot name
  unfold value?
  rw [htable]
  cases s.table? name with
  | none => simp
  | some t =>
    show (t.erase slot).get? x = _
    rw [AttributeTable.get?_erase]
    rfl

/-- Clearing slots leaves the values of all others. -/
theorem value?_foldl_clearSlot {slots : List Nat} {x : Nat} (hx : x ∉ slots) (s : AttributeSet)
    (name : String) : (slots.foldl clearSlot s).value? name x = s.value? name x := by
  induction slots generalizing s with
  | nil => rfl
  | cons slot slots ih =>
    rw [List.mem_cons, not_or] at hx
    rw [List.foldl_cons, ih hx.2, value?_clearSlot, if_neg hx.1]

/-! ## Operations -/

/-- An operation on the tables of a set. -/
inductive Operation
  | create (name : String) (type : AttributeType)
  | set (name : String) (slot : Nat) (v : AttributeValue)
  | remove (name : String) (slot : Nat)
  | clearSlot (slot : Nat)

/-- What the operation makes of a set; the value that `remove` answers is not looked at. -/
def Operation.apply : Operation → AttributeSet → Except AttributeError AttributeSet
  | create name type, s => s.create name type
  | set name slot v, s => s.set name slot v
  | remove name slot, s => (s.remove name slot).map (·.2)
  | clearSlot slot, s => .ok (s.clearSlot slot)

/-- Only `set` gives a value to a slot that had none, and then to its own. -/
theorem Operation.hasValue {op : Operation} {s s' : AttributeSet} (h : op.apply s = .ok s') {x : Nat}
    (hx : s'.HasValue x) : (∃ name v, op = .set name x v) ∨ s.HasValue x := by
  cases op with
  | create name type => exact .inr (hasValue_create h hx)
  | set name slot v =>
    rcases hasValue_set h hx with rfl | hold
    · exact .inl ⟨name, v, rfl⟩
    · exact .inr hold
  | remove name slot =>
    obtain ⟨⟨v, s₁⟩, hremove, rfl⟩ := exists_of_map_eq_ok h
    exact .inr (hasValue_remove hremove hx)
  | clearSlot slot =>
    cases h
    exact .inr ((hasValue_clearSlot s slot x).1 hx).1

end AttributeSet

end LiveGraph
