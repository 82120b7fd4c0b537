import TokenTable.Sorting.Basic
import TokenTable.Value.Ordered

/-! # Sorting values

Values that stand in one line, each pair of them in order or alike, have one sorted order in which
like values keep their places. Other values are sorted by merging runs, and a pair that cannot be
compared is a fault as soon as it is met. Main statements: `sortOn_perm`, sorting rearranges, and
`isLine_text`. -/

namespace TokenTable.Value

/-- Whether two values are in order one way or the other, or alike. -/
def inLine (v w : Value) : Bool :=
  match before v w, before w v with
  | .ok first, .ok second => first || second || same v w
  | _, _ => false

/-- Whether any two members of the list are in order or alike. -/
def isLine : List Value → Bool
  | [] => true
  | v :: rest => rest.all (inLine v) && isLine rest

/-- Whether the first value may stand before the second in a sorted list. -/
def notAfter (v w : Value) : Bool :=
  match before w v with
  | .ok after => !after
  | .error _ => true

/-- Items in the order of their keys. -/
def sortOn {α : Type} (key : α → Value) (items : List α) : Except Fault (List α) :=
  if isLine (items.map key) then .ok (items.mergeSort fun a b => notAfter (key a) (key b))
  else Sorting.sort (fun a b => before (key a) (key b)) items

def sorted (vs : List Value) : Except Fault (List Value) := sortOn id vs

theorem sortOn_perm {α : Type} (key : α → Value) (items ordered : List α)
    (done : sortOn key items = .ok ordered) : ordered.Perm items := by
  unfold sortOn at done
  split at done
  · cases done
    exact List.mergeSort_perm items _
  · exact Sorting.perm_of_sort _ items ordered done

theorem isLine_text (ss : List String) : isLine (ss.map .text) = true := by
  induction ss with
  | nil => rfl
  | cons s rest ih =>
    have pairs : (rest.map Value.text).all (inLine (.text s)) = true := by
      rw [List.all_eq_true]
      intro v member
      obtain ⟨t, _, rfl⟩ := List.mem_map.mp member
      by_cases early : s < t
      · simp [inLine, early]
      · by_cases late : t < s
        · simp [inLine, late]
        · have alike := String.le_antisymm (String.not_lt.mp late) (String.not_lt.mp early)
          simp [inLine, alike]
    rw [List.map_cons, isLine, pairs, ih, Bool.and_self]

end TokenTable.Value
