import TokenTable.Value.Ordered
import TokenTable.Value.Slice

/-! # Chunks of a list

A batch is sent in pages of limited size: consecutive chunks of the list, all full but perhaps the
last. Main statements: `flatten_chunks`, the chunks join to the list, and
`length_le_of_mem_chunks`. -/

namespace TokenTable.Batch

/-- The consecutive chunks of a list with at most `size` members each; a size of zero gives
none. -/
def chunks {α : Type} (size : Nat) (items : List α) : List (List α) :=
  if items.isEmpty || size == 0 then []
  else items.take size :: chunks size (items.drop size)
termination_by items.length
decreasing_by
  rename_i proper
  simp only [Bool.or_eq_true, List.isEmpty_iff, beq_iff_eq, not_or] at proper
  have := List.length_pos_iff.mpr proper.1
  simp only [List.length_drop]
  omega

/-- The consecutive slices of a sequence of any shape; a size that is not positive is a fault. -/
def slices (items size : Value) : Except Fault (List Value) := do
  if ← size.isAtMost 0 then throw .sizeNotPositive
  let length ← items.length
  match size.whole? with
  | none => throw .wrongShape
  | some n =>
    let size := n.toNat
    (List.range ((length + size - 1) / size)).mapM fun count =>
      items.slice (count * size) ((count + 1) * size)

theorem flatten_chunks {α : Type} (size : Nat) (items : List α) (positive : 0 < size) :
    (chunks size items).flatten = items := by
  fun_induction chunks size items with
  | case1 items empty =>
    simp only [Bool.or_eq_true, List.isEmpty_iff, beq_iff_eq] at empty
    rcases empty with rfl | rfl
    · rfl
    · omega
  | case2 items _ ih => rw [List.flatten_cons, ih, List.take_append_drop]

theorem length_le_of_mem_chunks {α : Type} (size : Nat) (items chunk : List α)
    (member : chunk ∈ chunks size items) : chunk.length ≤ size := by
  fun_induction chunks size items with
  | case1 => cases member
  | case2 items _ ih =>
    rcases List.mem_cons.mp member with rfl | later
    · exact List.length_take_le size items
    · exact ih later

end TokenTable.Batch
