import TokenTable.Batch.Chunks

/-! # Slices of a list

The chunks of a list are its slices at consecutive places (`chunks_eq_slicesOf`). They join to the
list, none is empty, and all but the last are full (`isSlicing_slicesOf`).
-/

namespace TokenTable.Batch

variable {α : Type}

/-- How many slices of at most `size` members a list of some length makes. -/
def sliceCount (size length : Nat) : Nat := (length + size - 1) / size

/-- The slice of a list with a number. -/
def nthSlice (size : Nat) (items : List α) (n : Nat) : List α := (items.drop (n * size)).take size

/-- The consecutive slices of a list. -/
def slicesOf (size : Nat) (items : List α) : List (List α) :=
  (List.range (sliceCount size items.length)).map (nthSlice size items)

/-- Consecutive slices that make up a list: none is empty, and all but the last are full. -/
structure IsSlicing (size : Nat) (items : List α) (slices : List (List α)) : Prop where
  flatten_eq : slices.flatten = items
  ne_nil : ∀ slice ∈ slices, slice ≠ []
  length_le : ∀ slice ∈ slices, slice.length ≤ size
  full : ∀ slice ∈ slices.dropLast, slice.length = size

theorem sliceCount_of_pos (size length : Nat) (positive : 0 < size) (proper : 0 < length) :
    sliceCount size length = sliceCount size (length - size) + 1 := by
  unfold sliceCount
  by_cases short : length ≤ size
  · have none : length - size + size - 1 = size - 1 := by omega
    have one : length + size - 1 = (length - 1) + size := by omega
    rw [none, one, Nat.add_div_right _ positive, Nat.div_eq_of_lt (by omega),
      Nat.div_eq_of_lt (by omega)]
  · have shorter : length + size - 1 = (length - size + size - 1) + size := by omega
    rw [shorter, Nat.add_div_right _ positive]

theorem nthSlice_succ (size : Nat) (items : List α) (n : Nat) :
    nthSlice size items (n + 1) = nthSlice size (items.drop size) n := by
  unfold nthSlice
  rw [List.drop_drop, Nat.add_mul, Nat.one_mul, Nat.add_comm]

/-- A list that is not empty is sliced into its first members and the slices of the rest. -/
theorem slicesOf_of_ne_nil (size : Nat) (items : List α) (positive : 0 < size)
    (proper : items ≠ []) :
    slicesOf size items = items.take size :: slicesOf size (items.drop size) := by
  have count := sliceCount_of_pos size items.length positive (List.length_pos_iff.mpr proper)
  have first : nthSlice size items 0 = items.take size := by
    rw [nthSlice, Nat.zero_mul, List.drop_zero]
  unfold slicesOf
  rw [count, List.range_succ_eq_map, List.map_cons, List.map_map, first, List.length_drop]
  refine congrArg (items.take size :: ·) (List.map_congr_left fun n _ => ?_)
  exact nthSlice_succ size items n

theorem chunks_eq_slicesOf (size : Nat) (items : List α) (positive : 0 < size) :
    chunks size items = slicesOf size items := by
  fun_induction chunks size items with
  | case1 items empty =>
      simp only [Bool.or_eq_true, List.isEmpty_iff, beq_iff_eq] at empty
      have none : items = [] := by
        rcases empty with none | zero
        · exact none
        · omega
      subst none
      have count : sliceCount size 0 = 0 := Nat.div_eq_of_lt (by omega)
      rw [slicesOf, List.length_nil, count, List.range_zero, List.map_nil]
  | case2 items proper ih =>
      simp only [Bool.or_eq_true, List.isEmpty_iff, beq_iff_eq, not_or] at proper
      rw [ih, slicesOf_of_ne_nil size items positive proper.1]

/-- From a place on, a list is the slice there and what comes after it. -/
theorem nthSlice_append_drop (size : Nat) (items : List α) (n : Nat) :
    nthSlice size items n ++ items.drop ((n + 1) * size) = items.drop (n * size) := by
  have after : items.drop ((n + 1) * size) = (items.drop (n * size)).drop size := by
    rw [List.drop_drop, Nat.add_mul, Nat.one_mul]
  rw [after, nthSlice, List.take_append_drop]

theorem slicesOf_getElem (size : Nat) (items : List α) (n : Nat)
    (inside : n < (slicesOf size items).length) :
    (slicesOf size items)[n] = nthSlice size items n := by
  simp only [slicesOf, List.getElem_map, List.getElem_range]

/-- From a place on, the slices join to what comes there. -/
theorem flatten_drop_slicesOf (size : Nat) (items : List α) (positive : 0 < size) (n : Nat) :
    ((slicesOf size items).drop n).flatten = items.drop (n * size) := by
  induction n with
  | zero =>
      rw [List.drop_zero, Nat.zero_mul, List.drop_zero, ← chunks_eq_slicesOf size items positive]
      exact flatten_chunks size items positive
  | succ n ih =>
      by_cases inside : n < (slicesOf size items).length
      · have slice := slicesOf_getElem size items n inside
        rw [List.drop_eq_getElem_cons inside, List.flatten_cons, slice,
          ← nthSlice_append_drop size items n] at ih
        exact List.append_cancel_left ih
      · have none : (slicesOf size items).drop n = [] := List.drop_eq_nil_of_le (by omega)
        have later : (slicesOf size items).drop (n + 1) = [] := List.drop_eq_nil_of_le (by omega)
        rw [none, ← nthSlice_append_drop size items n] at ih
        rw [later]
        exact (List.append_eq_nil_iff.mp ih.symm).2.symm

theorem length_of_mem_dropLast_chunks (size : Nat) (items chunk : List α)
    (member : chunk ∈ (chunks size items).dropLast) : chunk.length = size := by
  fun_induction chunks size items with
  | case1 => cases member
  | case2 items proper ih =>
      cases rest : chunks size (items.drop size) with
      | nil =>
          rw [rest, List.dropLast_singleton] at member
          cases member
      | cons next later =>
          rw [rest, List.dropLast_cons_cons, List.mem_cons] at member
          rcases member with rfl | member
          · have beyond : items.drop size ≠ [] := by
              intro none
              rw [none, chunks] at rest
              cases rest
            rw [List.length_take]
            have longer := List.length_pos_iff.mpr beyond
            rw [List.length_drop] at longer
            omega
          · rw [rest] at ih
            exact ih member

theorem ne_nil_of_mem_chunks (size : Nat) (items chunk : List α)
    (member : chunk ∈ chunks size items) : chunk ≠ [] := by
  fun_induction chunks size items with
  | case1 => cases member
  | case2 items proper ih =>
      simp only [Bool.or_eq_true, List.isEmpty_iff, beq_iff_eq, not_or] at proper
      rcases List.mem_cons.mp member with rfl | later
      · intro none
        rcases List.take_eq_nil_iff.mp none with zero | empty
        · exact proper.2 zero
        · exact proper.1 empty
      · exact ih later

/-- The consecutive slices of a list make it up. -/
theorem isSlicing_slicesOf (size : Nat) (items : List α) (positive : 0 < size) :
    IsSlicing size items (slicesOf size items) := by
  rw [← chunks_eq_slicesOf size items positive]
  exact {
    flatten_eq := flatten_chunks size items positive
    ne_nil := ne_nil_of_mem_chunks size items
    length_le := length_le_of_mem_chunks size items
    full := length_of_mem_dropLast_chunks size items }

end TokenTable.Batch
