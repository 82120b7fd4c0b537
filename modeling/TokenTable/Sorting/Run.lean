import TokenTable.Fallible

/-! # Runs and insertion

A run is a part of a list that is in order. A list starts with a longest run, which is turned around
if each of its members comes before its predecessor. Further members are inserted one by one, each
at a place found by halving the run; a member goes after those that it does not come before. Main
statements: `perm_of_leading` and `perm_of_insert`, runs rearrange the members. -/

namespace TokenTable.Sorting

variable {ε α : Type}

/-- How many members go on from their predecessors, and the first from the last one before them. -/
def stretch (goesOn : α → α → Except ε Bool) (last : α) : List α → Except ε Nat
  | [] => .ok 0
  | a :: rest => do
    if ← goesOn last a then return (← stretch goesOn a rest) + 1 else return 0

/-- How many members after the first belong to the run that a list starts with, and whether the run
descends. -/
def leadingRun (less : α → α → Except ε Bool) (a : α) : List α → Except ε (Nat × Bool)
  | [] => .ok (0, false)
  | b :: rest => do
    let descends ← less b a
    let more ← stretch (fun last next => return (← less next last) == descends) b rest
    return (more + 1, descends)

/-- The run that a list starts with, in order. -/
def leading (descends : Bool) (a : α) (more : List α) : List α :=
  if descends then (a :: more).reverse else a :: more

def insert (less : α → α → Except ε Bool) (a : α) (run : List α) : Except ε (List α) :=
  match _parts : run.splitAt (run.length / 2) with
  | (front, []) => .ok (front ++ [a])
  | (front, pivot :: after) => do
    if ← less a pivot then return (← insert less a front) ++ pivot :: after
    else return front ++ pivot :: (← insert less a after)
termination_by run.length
decreasing_by
  all_goals
    rw [List.splitAt_eq, Prod.mk.injEq] at _parts
    have whole := congrArg List.length (List.take_append_drop (run.length / 2) run)
    rw [_parts.1, _parts.2, List.length_append, List.length_cons] at whole
    omega

def insertAll (less : α → α → Except ε Bool) (run : List α) : List α → Except ε (List α)
  | [] => .ok run
  | a :: rest => do insertAll less (← insert less a run) rest

theorem perm_of_leading (descends : Bool) (a : α) (more : List α) :
    (leading descends a more).Perm (a :: more) := by
  cases descends with
  | false => exact .refl _
  | true => exact List.reverse_perm _

theorem perm_of_insert (less : α → α → Except ε Bool) (a : α) (run sorted : List α)
    (done : insert less a run = .ok sorted) : sorted.Perm (a :: run) := by
  induction size : run.length using Nat.strongRecOn generalizing run sorted with
  | _ size ih =>
    subst size
    unfold insert at done
    split at done
    · rename_i front parts
      rw [List.splitAt_eq, Prod.mk.injEq] at parts
      cases done
      have whole := List.take_append_drop (run.length / 2) run
      rw [parts.1, parts.2, List.append_nil] at whole
      rw [whole]
      exact List.perm_append_singleton a run
    · rename_i front pivot after parts
      rw [List.splitAt_eq, Prod.mk.injEq] at parts
      have whole := List.take_append_drop (run.length / 2) run
      rw [parts.1, parts.2] at whole
      have size := congrArg List.length whole
      rw [List.length_append, List.length_cons] at size
      obtain ⟨comes, _, done⟩ := (bind_eq_ok_iff _ _ _).mp done
      cases comes with
      | true =>
        obtain ⟨inserted, early, done⟩ := (bind_eq_ok_iff _ _ _).mp done
        cases done
        rw [← whole]
        exact (ih front.length (by omega) front inserted early rfl).append_right (pivot :: after)
      | false =>
        obtain ⟨inserted, late, done⟩ := (bind_eq_ok_iff _ _ _).mp done
        cases done
        rw [← whole]
        have moved := ((ih after.length (by omega) after inserted late rfl).cons pivot).append_left
          front
        refine moved.trans ?_
        refine ((List.Perm.swap a pivot after).append_left front).trans ?_
        exact List.perm_middle

theorem perm_of_insertAll (less : α → α → Except ε Bool) (run members sorted : List α)
    (done : insertAll less run members = .ok sorted) : sorted.Perm (run ++ members) := by
  induction members generalizing run with
  | nil =>
    cases done
    rw [List.append_nil]
  | cons a rest ih =>
    obtain ⟨inserted, once, done⟩ := (bind_eq_ok_iff _ _ _).mp done
    refine (ih inserted done).trans ?_
    exact ((perm_of_insert less a run inserted once).append_right rest).trans
      List.perm_middle.symm

end TokenTable.Sorting
