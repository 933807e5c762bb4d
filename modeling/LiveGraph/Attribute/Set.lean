import LiveGraph.Attribute.Table

/-!
# Attribute sets

The attributes of one kind of element: tables with different names, in the order in which they were
created. A table is found by its name through an index of positions. That the index is right is part
of the type, so every name has one table, and its position is one of the list.
-/

namespace LiveGraph

/-- The index has each name with its position, and no other. -/
def Indexes (index : List (String × Nat)) (names : List String) : Prop :=
  ∀ name i, index.lookup name = some i ↔ names[i]? = some name

theorem indexes_nil : Indexes [] [] := by
  intro name i
  simp

/-- A name that has no position gets the next one. -/
theorem Indexes.concat {index : List (String × Nat)} {names : List String} (h : Indexes index names)
    {name : String} (hnew : index.lookup name = none) :
    Indexes ((name, names.length) :: index) (names ++ [name]) := by
  intro x i
  have hold := h x i
  rw [List.lookup_cons, List.getElem?_append]
  by_cases hx : x = name
  · subst hx
    rw [hnew] at hold
    rw [beq_self_eq_true]
    by_cases hi : i < names.length
    · -- the name had no position, so it does not stand at this one
      have hother : names[i]? ≠ some x := fun hin => Option.some_ne_none i (hold.2 hin).symm
      have hne : names.length ≠ i := by omega
      rw [if_pos hi]
      simp [hother, hne]
    · rw [if_neg hi, List.getElem?_singleton]
      by_cases hlast : i = names.length
      · simp [hlast]
      · have hbehind : ¬ i - names.length = 0 := by omega
        simp [hbehind, Ne.symm hlast]
  · rw [beq_false_of_ne hx]
    by_cases hi : i < names.length
    · rw [if_pos hi]
      exact hold
    · rw [List.getElem?_eq_none (Nat.le_of_not_lt hi)] at hold
      rw [if_neg hi, List.getElem?_singleton]
      by_cases hlast : i - names.length = 0
      · simp [hold, hlast, Ne.symm hx]
      · simp [hold, hlast]

/-- Attribute tables, addressed by name. -/
structure AttributeSet where
  /-- The tables in the order of their creation. -/
  tables : List AttributeTable := []
  /-- The position of the table of each name. -/
  index : List (String × Nat) := []
  indexed : Indexes index (tables.map (·.name)) := by exact indexes_nil

namespace AttributeSet

instance : Inhabited AttributeSet := ⟨{}⟩

/-- The table of a name, with its position. -/
def find? (s : AttributeSet) (name : String) : Option (Nat × AttributeTable) := do
  let i ← s.index.lookup name
  let t ← s.tables[i]?
  return (i, t)

/-- The table of a name. -/
def table? (s : AttributeSet) (name : String) : Option AttributeTable := (s.find? name).map (·.2)

/-- The names of the tables in the order of their creation. -/
def names (s : AttributeSet) : List String := s.tables.map (·.name)

/-- The set with a further table, which has no values; a name in use is refused. -/
def create (s : AttributeSet) (name : String) (type : AttributeType) :
    Except AttributeError AttributeSet :=
  if h : s.index.lookup name = none then
    .ok {
      tables := s.tables ++ [.new name type]
      index := (name, s.tables.length) :: s.index
      indexed := by
        rw [List.map_append, ← List.length_map (·.name)]
        exact s.indexed.concat h }
  else .error (.duplicate name)

/-- Other values in a table leave all names where they are. -/
theorem names_modify (tables : List AttributeTable) (i : Nat) (column : Column) :
    (tables.modify i ({ · with column })).map (·.name) = tables.map (·.name) := by
  apply List.ext_getElem?
  intro k
  rw [List.getElem?_map, List.getElem?_map, List.getElem?_modify]
  cases tables[k]? with
  | none => rfl
  | some t =>
    show some (if i = k then { t with column } else t).name = some t.name
    split
    · rfl
    · rfl

/-- The set with other values in the table at a position. -/
def withColumn (s : AttributeSet) (i : Nat) (column : Column) : AttributeSet where
  tables := s.tables.modify i ({ · with column })
  index := s.index
  indexed := by
    rw [names_modify]
    exact s.indexed

/-- The set with a value in the table of a name. -/
def set (s : AttributeSet) (name : String) (slot : Nat) (v : AttributeValue) :
    Except AttributeError AttributeSet :=
  match s.find? name with
  | some (i, t) => (t.set slot v).map fun t => s.withColumn i t.column
  | none => .error (.unknown name)

/-- The set without a value in the table of a name, and the value that was there. -/
def remove (s : AttributeSet) (name : String) (slot : Nat) :
    Except AttributeError (Option AttributeValue × AttributeSet) :=
  match s.find? name with
  | some (i, t) => .ok (t.get? slot, s.withColumn i (t.erase slot).column)
  | none => .error (.unknown name)

/-- The set without any value at a slot. -/
def clearSlot (s : AttributeSet) (slot : Nat) : AttributeSet where
  tables := s.tables.map (·.erase slot)
  index := s.index
  indexed := by
    rw [List.map_map]
    exact s.indexed

end AttributeSet

end LiveGraph
