import LiveGraph.Bytes

/-!
# Byte strings, byte by byte

What a slice, an overwritten and a resized byte string hold at each position. Positions are read
with `getD`, so that no statement carries a bound; behind the end there are zeros.
-/

namespace LiveGraph

/-- Setting a position changes it, if it exists, and no other. -/
theorem getD_setIfInBounds {α : Type} (a : Array α) (i k : Nat) (x d : α) :
    (a.setIfInBounds i x).getD k d = if i = k ∧ k < a.size then x else a.getD k d := by
  rw [Array.getD_eq_getD_getElem?, Array.getD_eq_getD_getElem?, Array.getElem?_setIfInBounds]
  by_cases hik : i = k
  · subst hik
    by_cases hi : i < a.size
    · simp [hi]
    · simp [hi]
  · simp [hik]

/-- Changing a position changes no other. -/
theorem getD_modify {α : Type} (a : Array α) (i k : Nat) (f : α → α) (d : α) :
    (a.modify i f).getD k d = if i = k ∧ k < a.size then f (a.getD k d) else a.getD k d := by
  rw [Array.getD_eq_getD_getElem?, Array.getD_eq_getD_getElem?, Array.getElem?_modify]
  by_cases hik : i = k
  · by_cases hk : k < a.size
    · rw [if_pos hik, if_pos ⟨hik, hk⟩, Array.getElem?_eq_getElem hk]
      rfl
    · rw [if_pos hik, if_neg fun h => hk h.2, Array.getElem?_eq_none (Nat.le_of_not_lt hk)]
      rfl
  · rw [if_neg hik, if_neg fun h => hik h.1]

theorem getD_push {α : Type} (a : Array α) (x : α) (k : Nat) (d : α) :
    (a.push x).getD k d = if k = a.size then x else a.getD k d := by
  rw [Array.getD_eq_getD_getElem?, Array.getD_eq_getD_getElem?, Array.getElem?_push]
  by_cases hk : k = a.size
  · rw [if_pos hk, if_pos hk]
    rfl
  · rw [if_neg hk, if_neg hk]

/-- Readings that all succeed can be made one after the other. -/
theorem mapM_of_ok {α β : Type} {f : α → Except Fault β} {g : α → β} {l : List α}
    (h : ∀ x ∈ l, f x = .ok (g x)) : l.mapM f = .ok (l.map g) := by
  induction l with
  | nil => rfl
  | cons x l ih =>
    rw [List.mapM_cons, h x List.mem_cons_self, ih fun y hy => h y (List.mem_cons_of_mem x hy)]
    rfl

/-- In a row of slots, the bytes of a slot lie before the slots behind it. -/
theorem slot_lt_iff {size a b j : Nat} (hj : j < size) :
    a * size + j < b * size ↔ a < b := by
  constructor
  · intro h
    apply Nat.lt_of_not_le
    intro hge
    have := Nat.mul_le_mul_right size hge
    omega
  · intro h
    have := Nat.mul_le_mul_right size (Nat.succ_le_of_lt h)
    rw [Nat.succ_mul] at this
    omega

/-- In a row of slots, a byte belongs to one slot and has one place in it. -/
theorem slot_inj {size a b i j : Nat} (hi : i < size) (hj : j < size) :
    a * size + i = b * size + j ↔ a = b ∧ i = j := by
  constructor
  · intro heq
    have hab : ¬ a < b := by
      rw [← slot_lt_iff hi]
      omega
    have hba : ¬ b < a := by
      rw [← slot_lt_iff hj]
      omega
    have hsame : a = b := by omega
    subst hsame
    exact ⟨rfl, by omega⟩
  · rintro ⟨rfl, rfl⟩
    rfl

/-- A position in a row tells the row. -/
theorem slot_div {size j : Nat} (a : Nat) (hj : j < size) : (a * size + j) / size = a := by
  rw [Nat.add_comm, Nat.add_mul_div_right _ _ (Nat.zero_lt_of_lt hj), Nat.div_eq_of_lt hj,
    Nat.zero_add]

/-- A position in a row tells the place in it. -/
theorem slot_mod {size j : Nat} (a : Nat) (hj : j < size) : (a * size + j) % size = j := by
  rw [Nat.add_comm, Nat.add_mul_mod_self_right, Nat.mod_eq_of_lt hj]

namespace Bytes

/-- A slice inside the byte string is the part between its ends. -/
theorem slice_eq_ok {b : Bytes} {start stop : Nat} (h : start ≤ stop) (hs : stop ≤ b.size) :
    b.slice start stop = .ok (b.extract start stop) := by
  rw [slice, if_pos ⟨h, hs⟩]

/-- Byte strings of one size are equal if they agree at every position. -/
theorem ext_getD {a b : Bytes} (hsize : a.size = b.size)
    (h : ∀ k, k < a.size → a.getD k 0 = b.getD k 0) : a = b := by
  apply Array.ext hsize
  intro k ha hb
  have hk := h k ha
  rw [Array.getD_eq_getD_getElem?, Array.getD_eq_getD_getElem?, Array.getElem?_eq_getElem ha,
    Array.getElem?_eq_getElem hb] at hk
  exact hk

theorem getD_extract (b : Bytes) {start stop k : Nat} (hs : stop ≤ b.size)
    (hk : k < stop - start) : (b.extract start stop).getD k 0 = b.getD (start + k) 0 := by
  have hmin : min stop b.size = stop := Nat.min_eq_left hs
  rw [Array.getD_eq_getD_getElem?, Array.getD_eq_getD_getElem?, Array.getElem?_extract, hmin,
    if_pos hk]

/-- In a row of slots, the bytes of one slot. -/
theorem extract_row {a row : Bytes} {size slot : Nat} (hfit : (slot + 1) * size ≤ a.size)
    (hrow : row.size = size)
    (h : ∀ j, j < size → a.getD (slot * size + j) 0 = row.getD j 0) :
    a.extract (slot * size) ((slot + 1) * size) = row := by
  have hend : (slot + 1) * size = slot * size + size := by rw [Nat.add_mul, Nat.one_mul]
  have hsize : (a.extract (slot * size) ((slot + 1) * size)).size = size := by
    rw [Array.size_extract]
    omega
  apply ext_getD
  · rw [hsize, hrow]
  · intro j hj
    rw [hsize] at hj
    rw [getD_extract _ hfit (by omega), h j hj]

theorem getD_append (a b : Bytes) (k : Nat) :
    (a ++ b).getD k 0 = if k < a.size then a.getD k 0 else b.getD (k - a.size) 0 := by
  rw [Array.getD_eq_getD_getElem?, Array.getD_eq_getD_getElem?, Array.getD_eq_getD_getElem?,
    Array.getElem?_append]
  by_cases hk : k < a.size
  · rw [if_pos hk, if_pos hk]
  · rw [if_neg hk, if_neg hk]

theorem getD_ofFn {n : Nat} (f : Fin n → UInt8) {k : Nat} (hk : k < n) :
    (Array.ofFn f).getD k 0 = f ⟨k, hk⟩ := by
  rw [Array.getD_eq_getD_getElem?, Array.getElem?_ofFn, dif_pos hk]
  rfl

@[simp] theorem joined_nil : joined [] = #[] := rfl

/-- Joining parts puts the first one in front. -/
@[simp] theorem joined_cons (part : Bytes) (parts : List Bytes) :
    joined (part :: parts) = part ++ joined parts := by
  have hfold : ∀ (parts : List Bytes) (acc : Bytes),
      parts.foldl (· ++ ·) acc = acc ++ parts.foldl (· ++ ·) #[] := by
    intro parts
    induction parts with
    | nil => simp
    | cons part parts ih =>
      intro acc
      rw [List.foldl_cons, List.foldl_cons, ih, ih (#[] ++ part), Array.empty_append,
        Array.append_assoc]
  rw [joined, joined, List.foldl_cons, hfold, Array.empty_append]

/-- Overwriting changes the positions under the written bytes and no others. -/
theorem getD_overwrite (b : Bytes) (i k : Nat) (xs : List UInt8) :
    (b.overwrite i xs).getD k 0
      = if i ≤ k ∧ k < i + xs.length ∧ k < b.size then xs.getD (k - i) 0 else b.getD k 0 := by
  induction xs generalizing b i with
  | nil =>
    have hno : ¬ (i ≤ k ∧ k < i + 0 ∧ k < b.size) := by omega
    rw [overwrite, List.length_nil, if_neg hno]
  | cons x xs ih =>
    rw [overwrite, ih, Array.size_setIfInBounds, List.length_cons, getD_setIfInBounds]
    by_cases hik : i = k
    · -- the first byte lands here, and the rest starts behind it
      subst hik
      have hno : ¬ (i + 1 ≤ i ∧ i < i + 1 + xs.length ∧ i < b.size) := by omega
      rw [if_neg hno, Nat.sub_self, List.getD_cons_zero]
      by_cases hb : i < b.size
      · rw [if_pos ⟨rfl, hb⟩, if_pos (by omega)]
      · rw [if_neg (fun h => hb h.2), if_neg (fun h => hb h.2.2)]
    -- elsewhere the first byte changes nothing, and the position is compared with the rest
    · have hother : ¬ (i = k ∧ k < b.size) := fun h => hik h.1
      rw [if_neg hother]
      by_cases hin : i + 1 ≤ k ∧ k < i + 1 + xs.length ∧ k < b.size
      · have hsub : k - i = k - (i + 1) + 1 := by omega
        rw [if_pos hin, if_pos (by omega), hsub, List.getD_cons_succ]
      · rw [if_neg hin, if_neg (by omega)]

/-- Overwriting the front of a byte string leaves what lies behind. -/
theorem overwrite_front {a b : Bytes} (h : b.size ≤ a.size) :
    a.overwrite 0 b.toList = b ++ a.extract b.size a.size := by
  apply ext_getD
  · rw [size_overwrite, Array.size_append, Array.size_extract, Nat.min_self]
    omega
  · intro k hk
    rw [size_overwrite] at hk
    rw [getD_overwrite, Array.length_toList, Nat.zero_add, Nat.sub_zero, getD_append]
    by_cases hb : k < b.size
    · rw [if_pos ⟨Nat.zero_le k, hb, hk⟩, if_pos hb, List.getD_eq_getElem?_getD,
        Array.getElem?_toList, Array.getD_eq_getD_getElem?]
    · rw [if_neg fun hc => hb hc.2.1, if_neg hb, getD_extract _ (Nat.le_refl _) (by omega),
        Nat.add_sub_cancel' (Nat.le_of_not_lt hb)]

/-- A resized byte string keeps what it had, and has zeros behind it. -/
theorem getD_resize (b : Bytes) {n k : Nat} (hk : k < n) :
    (b.resize n).getD k 0 = b.getD k 0 := by
  rw [resize]
  split
  · rfl
  · have hsize : (b.extract 0 n).size = min n b.size := by
      rw [Array.size_extract, Nat.sub_zero]
    rw [getD_append, hsize, Array.getD_eq_getD_getElem?, Array.getD_eq_getD_getElem?,
      Array.getD_eq_getD_getElem?]
    by_cases hb : k < b.size
    · rw [if_pos (by omega), Array.getElem?_extract, Nat.sub_zero, if_pos (by omega), Nat.zero_add]
    · rw [if_neg (by omega), Array.getElem?_replicate, if_pos (by omega),
        Array.getElem?_eq_none (by omega)]
      rfl

end Bytes

end LiveGraph
