import LiveGraph.Proofs.Attribute

/-!
# Attribute sets as plain maps

What a caller can see of an attribute set is a map from names to tables, each with a type and a map
from slots to values: `PlainAttributes`. On these maps the operations are written down as one would
explain them. `AttributeSet.view` forgets how a set is kept, the index of names, the positions and the
columns of three types. Every operation on a set is the plain operation on its view, so every run of
operations has the answers and the view that the plain map has.
-/

namespace LiveGraph

/-! ## Plain maps -/

/-- A table as a plain map: the type of its values, and the value of each slot that has one. -/
structure PlainTable where
  type : AttributeType
  value? : Nat → Option AttributeValue

/-- The table with another value, or none, at a slot. -/
def PlainTable.assign (t : PlainTable) (slot : Nat) (v : Option AttributeValue) : PlainTable :=
  { t with value? := fun x => if x = slot then v else t.value? x }

/-- Attributes as a plain map from names to tables, with the names in the order of their creation. -/
structure PlainAttributes where
  names : List String := []
  table? : String → Option PlainTable := fun _ => none

namespace PlainAttributes

/-- The map with another table under a name. -/
def replace (m : PlainAttributes) (name : String) (t : PlainTable) : PlainAttributes :=
  { m with table? := fun n => if n = name then some t else m.table? n }

/-- A further table without values, unless the name is in use. -/
def create (m : PlainAttributes) (name : String) (type : AttributeType) :
    Except AttributeError PlainAttributes :=
  match m.table? name with
  | some _ => .error (.duplicate name)
  | none => .ok { m.replace name ⟨type, fun _ => none⟩ with names := m.names ++ [name] }

/-- A value for a slot of a table, if there is such a table and the value is of its type. -/
def set (m : PlainAttributes) (name : String) (slot : Nat) (v : AttributeValue) :
    Except AttributeError PlainAttributes :=
  match m.table? name with
  | none => .error (.unknown name)
  | some t =>
    if v.type = t.type then .ok (m.replace name (t.assign slot (some v)))
    else .error (.typeMismatch name t.type v.type)

/-- No value for a slot of a table, if there is such a table; answers the value that was there. -/
def remove (m : PlainAttributes) (name : String) (slot : Nat) :
    Except AttributeError (Option AttributeValue × PlainAttributes) :=
  match m.table? name with
  | none => .error (.unknown name)
  | some t => .ok (t.value? slot, m.replace name (t.assign slot none))

/-- No value for a slot in any table. -/
def clearSlot (m : PlainAttributes) (slot : Nat) : PlainAttributes :=
  { m with table? := fun name => (m.table? name).map (·.assign slot none) }

end PlainAttributes

/-! ## Entries -/

namespace SlotMap

variable {α : Type}

/-- The entries are the slots with their values. -/
theorem mem_entries_iff (m : SlotMap α) (x : Nat) (a : α) :
    (x, a) ∈ m.entries ↔ m.get? x = some a := by
  obtain ⟨entries, hsorted⟩ := m
  unfold get?
  dsimp only
  induction entries with
  | nil => simp
  | cons e rest ih =>
    obtain ⟨hhead, hrest⟩ := List.pairwise_cons.1 hsorted
    rw [List.find?_cons, List.mem_cons]
    by_cases he : e.1 = x
    · rw [he, beq_self_eq_true]
      constructor
      · rintro (heq | hin)
        · rw [← heq]
          rfl
        · -- a later entry has a larger slot
          exact absurd (hhead _ hin) (by rw [he]; exact Nat.lt_irrefl x)
      · intro heq
        cases heq
        exact .inl (by rw [← he])
    · have hne : ¬ (x, a) = e := fun heq => he (heq ▸ rfl)
      rw [beq_false_of_ne he, ← ih hrest]
      exact or_iff_right hne

end SlotMap

namespace Column

/-- The entries of a column are its values. -/
theorem mem_entries_iff (c : Column) (x : Nat) (v : AttributeValue) :
    (x, v) ∈ c.entries ↔ c.get? x = some v := by
  cases c with
  | text m | integer m | float m =>
    unfold entries get?
    rw [List.mem_map, Option.map_eq_some_iff]
    constructor
    · rintro ⟨e, hin, heq⟩
      cases heq
      exact ⟨e.2, (m.mem_entries_iff e.1 e.2).1 hin, rfl⟩
    · rintro ⟨a, ha, rfl⟩
      exact ⟨(x, a), (m.mem_entries_iff x a).2 ha, rfl⟩

/-- The entries of a column are sorted by their slots. -/
theorem pairwise_entries (c : Column) : c.entries.Pairwise fun a b => a.1 < b.1 := by
  cases c with
  | text m | integer m | float m => exact List.pairwise_map.2 m.sorted

theorem length_entries (c : Column) : c.entries.length = c.size := by
  cases c with
  | text m | integer m | float m => exact List.length_map _

/-- Every value has the type of its column. -/
theorem type_of_get? {c : Column} {x : Nat} {v : AttributeValue} (h : c.get? x = some v) :
    v.type = c.type := by
  cases c with
  | text m | integer m | float m =>
    obtain ⟨a, -, rfl⟩ := Option.map_eq_some_iff.1 h
    rfl

end Column

/-! ## Views of tables -/

namespace AttributeTable

/-- What a caller sees of a table. -/
def view (t : AttributeTable) : PlainTable := ⟨t.type, t.get?⟩

/-- A new table has no values. -/
theorem view_new (name : String) (type : AttributeType) :
    (new name type).view = ⟨type, fun _ => none⟩ := by
  have hvalues : (new name type).get? = fun _ => none := funext (Column.get?_empty type)
  rw [view, hvalues]
  cases type <;> rfl

/-- Erasing a value is the assignment of none. -/
theorem view_erase (t : AttributeTable) (slot : Nat) :
    (t.erase slot).view = t.view.assign slot none := by
  have hvalues : (t.erase slot).get? = fun x => if x = slot then none else t.get? x :=
    funext (t.get?_erase slot)
  have htype : (t.erase slot).type = t.type := by
    obtain ⟨name, column⟩ := t
    cases column <;> rfl
  rw [view, hvalues, htype]
  rfl

/-- A value is set exactly if it has the type of the table. -/
theorem view_set (t : AttributeTable) (slot : Nat) (v : AttributeValue) :
    (t.set slot v).map view
      = if v.type = t.type then .ok (t.view.assign slot (some v))
        else .error (.typeMismatch t.name t.type v.type) := by
  -- a value can be inserted exactly if its type is that of the column
  have hinsert : (t.column.insert? slot v).isSome = decide (v.type = t.type) ∧
      ∀ c, t.column.insert? slot v = some c → c.type = t.type := by
    obtain ⟨name, column⟩ := t
    cases column <;> cases v <;> simp [Column.insert?, type, Column.type, AttributeValue.type]
  unfold set
  cases hcolumn : t.column.insert? slot v with
  | none =>
    rw [hcolumn] at hinsert
    rw [if_neg (of_decide_eq_false hinsert.1.symm)]
    rfl
  | some c =>
    rw [hcolumn] at hinsert
    have hvalues : c.get? = fun x => if x = slot then some v else t.get? x :=
      funext (Column.get?_insert? hcolumn)
    rw [if_pos (of_decide_eq_true hinsert.1.symm)]
    show Except.ok (PlainTable.mk c.type c.get?) = _
    rw [hinsert.2 c rfl, hvalues]
    rfl

end AttributeTable

/-! ## Views of sets -/

namespace AttributeSet

/-- What a caller sees of a set. -/
def view (s : AttributeSet) : PlainAttributes := ⟨s.names, fun name => (s.table? name).map (·.view)⟩

theorem find?_withColumn (s : AttributeSet) (i : Nat) (column : Column) (name : String) :
    (s.withColumn i column).find? name
      = (s.find? name).map fun (k, t) => (k, if i = k then { t with column } else t) := by
  apply Option.ext
  rintro ⟨k, t'⟩
  -- a table is found by its position and its name, and neither changes
  rw [find?_eq_some_iff, withColumn, List.getElem?_modify, Option.map_eq_some_iff]
  constructor
  · rintro ⟨ht', hname⟩
    obtain ⟨t, ht, rfl⟩ := Option.map_eq_some_iff.1 ht'
    refine ⟨(k, t), find?_eq_some_iff.2 ⟨ht, ?_⟩, rfl⟩
    rw [← hname]
    split
    · rfl
    · rfl
  · rintro ⟨⟨k', t⟩, hfind, heq⟩
    cases heq
    obtain ⟨ht, hname⟩ := find?_eq_some_iff.1 hfind
    refine ⟨by rw [ht]; rfl, ?_⟩
    rw [← hname]
    split
    · rfl
    · rfl

/-- Other values in the table of one name leave all other tables alone. -/
theorem table?_withColumn {s : AttributeSet} {name : String} {i : Nat} {t : AttributeTable}
    (hfind : s.find? name = some (i, t)) (column : Column) (n : String) :
    (s.withColumn i column).table? n = if n = name then some { t with column } else s.table? n := by
  rw [table?, find?_withColumn]
  by_cases hn : n = name
  · rw [if_pos hn, hn, hfind]
    simp
  · rw [if_neg hn, table?]
    cases hother : s.find? n with
    | none => rfl
    | some e =>
      obtain ⟨k, u⟩ := e
      -- at the position of the changed table there is no other name
      have hne : i ≠ k := by
        intro heq
        obtain ⟨hi, hname⟩ := find?_eq_some_iff.1 hfind
        obtain ⟨he, hname'⟩ := find?_eq_some_iff.1 hother
        rw [← heq, hi] at he
        cases he
        exact hn (hname'.symm.trans hname)
      simp [hne]

/-- Where the tables differ under one name only, so do the views. -/
theorem view_eq_replace {s s' : AttributeSet} {name : String} {t : AttributeTable}
    (htable : ∀ n, s'.table? n = if n = name then some t else s.table? n) :
    s'.view = { s.view.replace name t.view with names := s'.names } := by
  have hvalues : (fun n => (s'.table? n).map (·.view))
      = fun n => if n = name then some t.view else (s.table? n).map (·.view) := by
    funext n
    rw [htable]
    split
    · rfl
    · rfl
  rw [view, hvalues]
  rfl

/-- Replacing a column replaces one table of the plain set. -/
theorem view_withColumn {s : AttributeSet} {name : String} {i : Nat} {t : AttributeTable}
    (hfind : s.find? name = some (i, t)) (column : Column) :
    (s.withColumn i column).view
      = s.view.replace name ({ t with column } : AttributeTable).view := by
  have hnames : (s.withColumn i column).names = s.names := names_modify s.tables i column
  rw [view_eq_replace (table?_withColumn hfind column), hnames]
  rfl

theorem view_table? (s : AttributeSet) (name : String) :
    s.view.table? name = (s.find? name).map fun e => e.2.view := by
  show ((s.find? name).map (·.2)).map (·.view) = _
  rw [Option.map_map]
  rfl

/-- A name has no position exactly if it is not in use. -/
theorem lookup_eq_none_iff {s : AttributeSet} {name : String} :
    s.index.lookup name = none ↔ s.find? name = none := by
  rw [find?_eq_none_iff, Option.eq_none_iff_forall_ne_some, List.mem_iff_getElem?, not_exists]
  exact forall_congr' fun i => not_congr (s.indexed name i)

/-- A further table is found under its name, and hides no other. -/
theorem table?_concat {s s' : AttributeSet} {name : String} {u : AttributeTable}
    (hnew : s.find? name = none) (hu : u.name = name) (htables : s'.tables = s.tables ++ [u])
    (n : String) : s'.table? n = if n = name then some u else s.table? n := by
  apply Option.ext
  intro t
  rw [table?_eq_some_iff, htables, List.mem_append, List.mem_singleton]
  by_cases hn : n = name
  · rw [if_pos hn, Option.some_inj]
    constructor
    · rintro ⟨hold | hlast, hname⟩
      -- the earlier tables have other names
      · have hin : name ∈ s.names := List.mem_map.2 ⟨t, hold, hname.trans hn⟩
        exact absurd hin (find?_eq_none_iff.1 hnew)
      · exact hlast.symm
    · rintro rfl
      exact ⟨.inr rfl, hu.trans hn.symm⟩
  · rw [if_neg hn, table?_eq_some_iff]
    constructor
    · rintro ⟨hold | rfl, hname⟩
      · exact ⟨hold, hname⟩
      · exact absurd (hname.symm.trans hu) hn
    · rintro ⟨hold, hname⟩
      exact ⟨.inl hold, hname⟩

/-- A new table comes last, and stands under its name. -/
theorem view_concat {s s' : AttributeSet} {name : String} {type : AttributeType}
    (hnew : s.find? name = none) (htables : s'.tables = s.tables ++ [.new name type]) :
    s'.view = { s.view.replace name ⟨type, fun _ => none⟩ with names := s.names ++ [name] } := by
  have hnames : s'.names = s.names ++ [name] := by
    rw [names, htables, List.map_append]
    rfl
  rw [view_eq_replace (table?_concat hnew rfl htables), hnames, AttributeTable.view_new]

/-- Creating a table, seen on plain sets. -/
theorem view_create (s : AttributeSet) (name : String) (type : AttributeType) :
    (s.create name type).map view = s.view.create name type := by
  rw [PlainAttributes.create, view_table?, create]
  cases hfind : s.find? name with
  | some e =>
    have hused : ¬ s.index.lookup name = none := by
      rw [lookup_eq_none_iff, hfind]
      exact Option.some_ne_none e
    rw [dif_neg hused]
    rfl
  | none =>
    have hnew : s.index.lookup name = none := lookup_eq_none_iff.2 hfind
    rw [dif_pos hnew]
    exact congrArg Except.ok (view_concat hfind rfl)

/-- Setting a value, seen on plain sets. -/
theorem view_set (s : AttributeSet) (name : String) (slot : Nat) (v : AttributeValue) :
    (s.set name slot v).map view = s.view.set name slot v := by
  rw [set, PlainAttributes.set, view_table?]
  cases hfind : s.find? name with
  | none => rfl
  | some e =>
    obtain ⟨i, t⟩ := e
    have hset := t.view_set slot v
    rw [(find?_eq_some_iff.1 hfind).2] at hset
    show ((t.set slot v).map fun u => s.withColumn i u.column).map view
      = if v.type = t.type then .ok (s.view.replace name (t.view.assign slot (some v)))
        else .error (.typeMismatch name t.type v.type)
    calc ((t.set slot v).map fun u => s.withColumn i u.column).map view
        = ((t.set slot v).map AttributeTable.view).map (s.view.replace name) := by
          cases t.set slot v with
          | error e => rfl
          | ok u => exact congrArg Except.ok (view_withColumn hfind u.column)
      _ = _ := by
          rw [hset]
          split
          · rfl
          · rfl

/-- Removing a value, seen on plain sets. -/
theorem view_remove (s : AttributeSet) (name : String) (slot : Nat) :
    (s.remove name slot).map (fun (v, s) => (v, s.view)) = s.view.remove name slot := by
  rw [remove, PlainAttributes.remove, view_table?]
  cases hfind : s.find? name with
  | none => rfl
  | some e =>
    obtain ⟨i, t⟩ := e
    show Except.ok (t.get? slot, (s.withColumn i (t.erase slot).column).view) = _
    rw [view_withColumn hfind]
    show _ = Except.ok (t.get? slot, s.view.replace name (t.view.assign slot none))
    rw [← t.view_erase]
    rfl

/-- Clearing a slot, seen on plain sets. -/
theorem view_clearSlot (s : AttributeSet) (slot : Nat) :
    (s.clearSlot slot).view = s.view.clearSlot slot := by
  have hnames : (s.clearSlot slot).names = s.names := List.map_map
  rw [view, hnames, PlainAttributes.clearSlot]
  congr 1
  funext name
  rw [table?_clearSlot, view]
  simp only [Option.map_map]
  congr 1
  funext t
  exact t.view_erase slot

/-- A table of a new name comes after all others. -/
theorem exists_create {s : AttributeSet} {name : String} (hnew : name ∉ s.names)
    (type : AttributeType) :
    ∃ s', s.create name type = .ok s' ∧ s'.tables = s.tables ++ [.new name type] := by
  have hlookup : s.index.lookup name = none := lookup_eq_none_iff.2 (find?_eq_none_iff.2 hnew)
  rw [create, dif_pos hlookup]
  exact ⟨_, rfl, rfl⟩

/-- A value of the right type is put into the last table, and the others stay. -/
theorem exists_set_last {s : AttributeSet} {others : List AttributeTable} {t : AttributeTable}
    (htables : s.tables = others ++ [t]) {v : AttributeValue} (hv : v.type = t.type) (slot : Nat) :
    ∃ s' t', s.set t.name slot v = .ok s' ∧ s'.tables = others ++ [t'] ∧ t'.name = t.name ∧
      t'.type = t.type ∧ ∀ x, t'.get? x = if x = slot then some v else t.get? x := by
  have hfind : s.find? t.name = some (others.length, t) := by
    rw [find?_eq_some_iff, htables]
    exact ⟨List.getElem?_concat_length, rfl⟩
  have hview := AttributeTable.view_set t slot v
  rw [if_pos hv] at hview
  obtain ⟨t', hset, ht'⟩ := exists_of_map_eq_ok hview
  -- setting a value touches nothing of the table but its column
  have hname : { t with column := t'.column } = t' := by
    unfold AttributeTable.set at hset
    split at hset
    · cases hset
      rfl
    · cases hset
  refine ⟨s.withColumn others.length t'.column, t', ?_, ?_, ?_, ?_, AttributeTable.get?_set hset⟩
  · rw [set, hfind]
    simp only [hset]
    rfl
  · show s.tables.modify others.length _ = _
    rw [htables, List.modify_eq_take_drop]
    simp [hname]
  · rw [← hname]
  · exact congrArg PlainTable.type ht'

/-! ## Runs -/

/-- The operation on a set, with the value that it answers, if any. -/
def Operation.perform :
    Operation → AttributeSet → Except AttributeError (Option AttributeValue × AttributeSet)
  | create name type, s => (s.create name type).map (none, ·)
  | set name slot v, s => (s.set name slot v).map (none, ·)
  | remove name slot, s => s.remove name slot
  | clearSlot slot, s => .ok (none, s.clearSlot slot)

/-- The operation on a plain map. -/
def Operation.performPlain :
    Operation → PlainAttributes → Except AttributeError (Option AttributeValue × PlainAttributes)
  | create name type, m => (m.create name type).map (none, ·)
  | set name slot v, m => (m.set name slot v).map (none, ·)
  | remove name slot, m => m.remove name slot
  | clearSlot slot, m => .ok (none, m.clearSlot slot)

/-- The answer to an operation, and the state after it; an operation that is refused leaves the state as
it is. -/
def attempt {σ : Type} (perform : Operation → σ → Except AttributeError (Option AttributeValue × σ))
    (op : Operation) (s : σ) : Except AttributeError (Option AttributeValue) × σ :=
  match perform op s with
  | .ok (v, s') => (.ok v, s')
  | .error e => (.error e, s)

/-- The answers to the operations one after the other, and the state at the end. -/
def replay {σ : Type} (perform : Operation → σ → Except AttributeError (Option AttributeValue × σ)) :
    List Operation → σ → List (Except AttributeError (Option AttributeValue)) × σ
  | [], s => ([], s)
  | op :: ops, s =>
    let (answer, s') := attempt perform op s
    let (answers, s'') := replay perform ops s'
    (answer :: answers, s'')

theorem replay_append {σ : Type}
    (perform : Operation → σ → Except AttributeError (Option AttributeValue × σ))
    (earlier later : List Operation) (s : σ) :
    (replay perform (earlier ++ later) s).2
      = (replay perform later (replay perform earlier s).2).2 := by
  induction earlier generalizing s with
  | nil => rfl
  | cons op ops ih => exact ih (attempt perform op s).2

/-- One operation on the plain map has the answer and the view of the operation on the set. -/
theorem Operation.performPlain_view (op : Operation) (s : AttributeSet) :
    op.performPlain s.view = (op.perform s).map fun (v, s) => (v, s.view) := by
  cases op with
  | create name type =>
    rw [performPlain, perform, ← view_create]
    cases s.create name type <;> rfl
  | set name slot v =>
    rw [performPlain, perform, ← view_set]
    cases s.set name slot v <;> rfl
  | remove name slot => exact (s.view_remove name slot).symm
  | clearSlot slot =>
    rw [performPlain, ← view_clearSlot]
    rfl

theorem attempt_view (op : Operation) (s : AttributeSet) :
    attempt Operation.performPlain op s.view
      = ((attempt Operation.perform op s).1, (attempt Operation.perform op s).2.view) := by
  unfold attempt
  rw [op.performPlain_view s]
  cases op.perform s <;> rfl

/-- A run of operations gives the same answers on the plain set, and leads to the plain view of where it
led. -/
theorem replay_view (ops : List Operation) (s : AttributeSet) :
    replay Operation.performPlain ops s.view
      = ((replay Operation.perform ops s).1, (replay Operation.perform ops s).2.view) := by
  induction ops generalizing s with
  | nil => rfl
  | cons op ops ih =>
    rw [replay, attempt_view]
    dsimp only
    rw [ih]
    rfl

/-! ## Types -/

/-- A table that takes the place of one of its type leaves the type of every name. -/
theorem type_replace {m : PlainAttributes} {n name : String} {t u : PlainTable}
    (ht : m.table? name = some t) (hu : ∀ u₀, m.table? n = some u₀ → u.type = u₀.type) :
    ∃ t', (m.replace n u).table? name = some t' ∧ t'.type = t.type := by
  by_cases hn : name = n
  · refine ⟨u, if_pos hn, hu t ?_⟩
    rw [← hn]
    exact ht
  · exact ⟨t, (if_neg hn).trans ht, rfl⟩

/-- No operation takes a table away or changes its type. -/
theorem Operation.type_kept {op : Operation} {m m' : PlainAttributes} {v : Option AttributeValue}
    (h : op.performPlain m = .ok (v, m')) {name : String} {t : PlainTable}
    (ht : m.table? name = some t) : ∃ t', m'.table? name = some t' ∧ t'.type = t.type := by
  cases op with
  -- an existing table is not created again
  | create n type =>
    obtain ⟨m₁, hcreate, heq⟩ := exists_of_map_eq_ok h
    cases heq
    unfold PlainAttributes.create at hcreate
    split at hcreate
    · cases hcreate
    · next hnone =>
      cases hcreate
      exact type_replace ht fun u hu => absurd (hnone.symm.trans hu).symm (Option.some_ne_none u)
  | set n slot v =>
    obtain ⟨m₁, hset, heq⟩ := exists_of_map_eq_ok h
    cases heq
    unfold PlainAttributes.set at hset
    split at hset
    · cases hset
    · next u hu =>
      split at hset
      · cases hset
        refine type_replace ht fun u₀ hu₀ => ?_
        cases hu.symm.trans hu₀
        rfl
      · cases hset
  | remove n slot =>
    rw [performPlain, PlainAttributes.remove] at h
    split at h
    · cases h
    · next u hu =>
      cases h
      refine type_replace ht fun u₀ hu₀ => ?_
      cases hu.symm.trans hu₀
      rfl
  | clearSlot slot =>
    cases h
    refine ⟨t.assign slot none, ?_, rfl⟩
    show (m.table? name).map _ = _
    rw [ht]
    rfl

/-- No operations change the type of a table. -/
theorem type_replay (ops : List Operation) {m : PlainAttributes} {name : String} {t : PlainTable}
    (ht : m.table? name = some t) :
    ∃ t', (replay Operation.performPlain ops m).2.table? name = some t' ∧ t'.type = t.type := by
  induction ops generalizing m t with
  | nil => exact ⟨t, ht, rfl⟩
  | cons op ops ih =>
    show ∃ t', (replay _ ops (attempt _ op m).2).2.table? name = some t' ∧ t'.type = t.type
    unfold attempt
    split
    · next hop =>
      obtain ⟨t₁, ht₁, htype₁⟩ := op.type_kept hop ht
      obtain ⟨t₂, ht₂, htype₂⟩ := ih ht₁
      exact ⟨t₂, ht₂, htype₂.trans htype₁⟩
    · exact ih ht

/-- A table keeps its type in every run. -/
theorem type_of_table? (ops : List Operation) {s : AttributeSet} {name : String} {t : AttributeTable}
    (ht : s.table? name = some t) :
    ∃ t', (replay Operation.perform ops s).2.table? name = some t' ∧ t'.type = t.type := by
  have hview : s.view.table? name = some t.view := by
    show (s.table? name).map _ = _
    rw [ht]
    rfl
  obtain ⟨u, hu, htype⟩ := type_replay ops hview
  rw [replay_view] at hu
  obtain ⟨t', ht', rfl⟩ := Option.map_eq_some_iff.1 hu
  exact ⟨t', ht', htype⟩

/-! ## Laws -/

/-- What holds of the names, the tables and their entries. -/
structure Lawful (s : AttributeSet) : Prop where
  nodup : s.names.Nodup
  mem_names : ∀ name, name ∈ s.names ↔ (s.table? name).isSome = true
  /-- The table of a name is the one with that name. -/
  table?_eq : ∀ name t, s.table? name = some t ↔ t ∈ s.tables ∧ t.name = name
  type_eq : ∀ t ∈ s.tables, ∀ x v, t.get? x = some v → v.type = t.type
  sorted : ∀ t ∈ s.tables, t.entries.Pairwise fun a b => a.1 < b.1
  mem_entries : ∀ t ∈ s.tables, ∀ x v, (x, v) ∈ t.entries ↔ t.get? x = some v
  length_entries : ∀ t ∈ s.tables, t.entries.length = t.size

/-- A name stands at one position only: its position in the index. -/
theorem nodup_names (s : AttributeSet) : s.names.Nodup := by
  rw [List.Nodup, List.pairwise_iff_getElem]
  intro i j hi hj hij heq
  have hlookup := (s.indexed s.names[j] j).2 (List.getElem?_eq_getElem hj)
  rw [← heq, (s.indexed s.names[i] i).2 (List.getElem?_eq_getElem hi), Option.some_inj] at hlookup
  omega

theorem lawful (s : AttributeSet) : s.Lawful where
  nodup := s.nodup_names
  mem_names name := by
    rw [table?, Option.isSome_map, ← Option.ne_none_iff_isSome, Ne, find?_eq_none_iff, Decidable.not_not]
  table?_eq _ _ := table?_eq_some_iff
  type_eq _ _ _ _ hv := Column.type_of_get? hv
  sorted t _ := t.column.pairwise_entries
  mem_entries t _ := t.column.mem_entries_iff
  length_entries t _ := t.column.length_entries

/-- A set of attributes is a map from names to a type and a map from slots to values. In every run it
gives the answers that the plain map gives, refusals with their reasons included, and shows the same
names, types and values at the end. All its sets are lawful, and a table keeps its type. -/
theorem replay_refines_plain (ops : List Operation) :
    replay Operation.performPlain ops {}
        = ((replay Operation.perform ops {}).1, (replay Operation.perform ops {}).2.view) ∧
      (replay Operation.perform ops {}).2.Lawful ∧
      ∀ earlier later, ops = earlier ++ later → ∀ name t,
        (replay Operation.perform earlier {}).2.table? name = some t →
          ∃ t', (replay Operation.perform ops {}).2.table? name = some t' ∧ t'.type = t.type := by
  refine ⟨replay_view ops {}, lawful _, ?_⟩
  rintro earlier later rfl name t ht
  rw [replay_append]
  exact type_of_table? later ht

end AttributeSet

end LiveGraph
