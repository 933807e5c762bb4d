/-!
# Maps from slots

A map from slots to values, kept as a list of its entries in slot order. The order is part of the
type, so two maps with the same entries are equal.
-/

namespace LiveGraph

/-- A map from some slots to values. -/
structure SlotMap (α : Type) where
  /-- The entries in slot order. -/
  entries : List (Nat × α)
  sorted : entries.Pairwise (fun a b => a.1 < b.1)

namespace SlotMap

variable {α : Type}

/-- The map without entries. -/
def empty : SlotMap α := ⟨[], .nil⟩

instance : Inhabited (SlotMap α) := ⟨empty⟩

/-- The value at a slot. -/
def get? (m : SlotMap α) (slot : Nat) : Option α := (m.entries.find? (·.1 == slot)).map (·.2)

/-- The number of slots with a value. -/
def size (m : SlotMap α) : Nat := m.entries.length

/-- The entries with the value at one slot replaced or added. -/
def insertEntry (slot : Nat) (a : α) : List (Nat × α) → List (Nat × α)
  | [] => [(slot, a)]
  | (k, b) :: rest =>
    if slot < k then (slot, a) :: (k, b) :: rest
    else if slot = k then (slot, a) :: rest
    else (k, b) :: insertEntry slot a rest

theorem fst_of_mem_insertEntry {slot : Nat} {a : α} {l : List (Nat × α)} {e : Nat × α}
    (h : e ∈ insertEntry slot a l) : e.1 = slot ∨ e ∈ l := by
  induction l with
  | nil => simp_all [insertEntry]
  | cons x rest ih =>
    simp only [insertEntry] at h
    split at h
    · simp only [List.mem_cons] at h ⊢
      rcases h with rfl | rfl | h <;> simp_all
    · split at h
      · simp only [List.mem_cons] at h ⊢
        rcases h with rfl | h <;> simp_all
      · simp only [List.mem_cons] at h ⊢
        rcases h with rfl | h
        · simp
        · rcases ih h with h | h <;> simp [h]

theorem sorted_insertEntry {slot : Nat} {a : α} {l : List (Nat × α)}
    (h : l.Pairwise (fun a b => a.1 < b.1)) :
    (insertEntry slot a l).Pairwise (fun a b => a.1 < b.1) := by
  induction l with
  | nil => simp [insertEntry]
  | cons x rest ih =>
    obtain ⟨k, b⟩ := x
    obtain ⟨hx, hrest⟩ := List.pairwise_cons.mp h
    simp only [insertEntry]
    split
    · rename_i hlt
      refine List.pairwise_cons.mpr ⟨?_, h⟩
      intro e he
      rcases List.mem_cons.mp he with rfl | he
      · exact hlt
      · exact Nat.lt_trans hlt (hx e he)
    · split
      · rename_i heq
        subst heq
        exact List.pairwise_cons.mpr ⟨hx, hrest⟩
      · rename_i hnlt hne
        refine List.pairwise_cons.mpr ⟨?_, ih hrest⟩
        intro e he
        rcases fst_of_mem_insertEntry he with h | h
        · show k < e.1
          omega
        · exact hx e h

/-- The map with a value at a slot. -/
def insert (m : SlotMap α) (slot : Nat) (a : α) : SlotMap α :=
  ⟨insertEntry slot a m.entries, sorted_insertEntry m.sorted⟩

/-- The map without a value at a slot. -/
def erase (m : SlotMap α) (slot : Nat) : SlotMap α :=
  ⟨m.entries.filter (·.1 != slot), m.sorted.filter _⟩

end SlotMap

end LiveGraph
