import TokenTable.Sorting.Merge
import TokenTable.Sorting.Run

/-! # Sorting by merging runs

A list is cut into runs, short ones of which are filled up by insertion, and neighbouring runs are
merged. Each boundary between runs has a power, the depth at which it halves the list, and runs are
merged across deep boundaries first. Comparisons may fail, which ends the sort. Where comparisons do
not make a linear order, the result depends on which of them are made; where they do, every stable
sort has it. Main statement: `perm_of_sort`, sorting rearranges. -/

namespace TokenTable.Sorting

variable {ε α : Type}

/-- The length up to which short runs are filled up. -/
def longRun : Nat := 64

/-- The least length of runs: the length of the list halved until it is less than that of a long
run, and one more if a half was dropped. -/
def leastRun (dropped : Nat) (length : Nat) : Nat :=
  if length < longRun then length + dropped else leastRun (max dropped (length % 2)) (length / 2)
termination_by length
decreasing_by
  simp only [longRun] at *
  omega

/-- The depth at which halving a list of some length parts two points of it, each given by twice its
distance from the start. -/
def boundaryPower (length : Nat) : Nat → Nat → Nat → Nat
  | 0, _, _ => 0
  | depth + 1, left, right =>
    if left / length = right / length then boundaryPower length depth (2 * left) (2 * right) + 1
    else 1

/-- A run that is not merged yet, with the power of the boundary after it. -/
structure Pending (α : Type) where
  run : List α
  power : Nat

/-- Merges a run with those before it across boundaries deeper than a given power. -/
def collapse (less : α → α → Except ε Bool) (power : Nat) (limit : Nat) (top : List α) :
    List (Pending α) → Except ε ((List α × List (Pending α)) × Nat)
  | [] => .ok ((top, []), limit)
  | below :: rest => do
    if power < below.power then
      let (merged, learned) ← mergeRuns less limit below.run top
      collapse less power learned merged rest
    else return ((top, below :: rest), limit)

/-- Merges all runs, the last ones first unless the run before them is shorter than the last. -/
def mergeAll (less : α → α → Except ε Bool) (limit : Nat) (top : List α) :
    List (Pending α) → Except ε (List α)
  | [] => .ok top
  | [below] => do return (← mergeRuns less limit below.run top).1
  | below :: lowest :: rest => do
    if lowest.run.length < top.length then
      let (merged, learned) ← mergeRuns less limit lowest.run below.run
      mergeAll less learned top (⟨merged, lowest.power⟩ :: rest)
    else
      let (merged, learned) ← mergeRuns less limit below.run top
      mergeAll less learned merged (lowest :: rest)
termination_by pending => pending.length

/-- The runs before a new one, merged across boundaries deeper than the one before it. -/
def settle (less : α → α → Except ε Bool) (length start added limit : Nat) :
    List (Pending α) → Except ε (List (Pending α) × Nat)
  | [] => .ok ([], limit)
  | top :: below => do
    let power := boundaryPower length length (2 * start - top.run.length) (2 * start + added)
    let ((merged, rest), learned) ← collapse less power limit top.run below
    return (⟨merged, power⟩ :: rest, learned)

/-- Cuts the rest of a list into runs and merges them with those before. -/
def sortFrom (less : α → α → Except ε Bool) (length least start limit : Nat)
    (pending : List (Pending α)) : List α → Except ε (List α)
  | [] =>
    match pending with
    | [] => .ok []
    | top :: below => mergeAll less limit top.run below
  | a :: rest => do
    let (more, descends) ← leadingRun less a rest
    let run ← insertAll less (leading descends a (rest.take more))
      ((rest.take (least - 1)).drop more)
    let (before, learned) ← settle less length start run.length limit pending
    sortFrom less length least (start + run.length) learned (⟨run, 0⟩ :: before)
      (rest.drop (max more (least - 1)))
termination_by items => items.length
decreasing_by
  simp only [List.length_cons, List.length_drop]
  omega

def sort (less : α → α → Except ε Bool) (items : List α) : Except ε (List α) :=
  sortFrom less items.length (leastRun 0 items.length) 0 worthLeaping [] items

/-- The members of pending runs, given last run first. -/
def members (pending : List (Pending α)) : List α := pending.flatMap Pending.run

theorem perm_of_collapse (less : α → α → Except ε Bool) (power limit learned : Nat)
    (top run : List α) (pending rest : List (Pending α))
    (done : collapse less power limit top pending = .ok ((run, rest), learned)) :
    (run ++ members rest).Perm (top ++ members pending) := by
  induction pending generalizing top limit with
  | nil =>
    cases done
    exact .refl _
  | cons below pending ih =>
    unfold collapse at done
    split at done
    · obtain ⟨⟨merged, _⟩, once, done⟩ := (bind_eq_ok_iff _ _ _).mp done
      refine (ih _ _ done).trans ?_
      refine ((perm_of_mergeRuns _ _ _ _ _ _ once).append_right _).trans ?_
      rw [List.append_assoc]
      exact List.perm_append_comm_assoc _ _ _
    · cases done
      exact .refl _

theorem perm_of_mergeAll (less : α → α → Except ε Bool) (limit : Nat) (top sorted : List α)
    (pending : List (Pending α)) (done : mergeAll less limit top pending = .ok sorted) :
    sorted.Perm (top ++ members pending) := by
  induction size : pending.length using Nat.strongRecOn generalizing limit top pending with
  | _ size ih =>
    subst size
    unfold mergeAll at done
    split at done
    · cases done
      rw [members, List.flatMap_nil, List.append_nil]
    · obtain ⟨⟨merged, _⟩, once, done⟩ := (bind_eq_ok_iff _ _ _).mp done
      cases done
      refine (perm_of_mergeRuns _ _ _ _ _ _ once).trans ?_
      rw [members, List.flatMap_singleton]
      exact List.perm_append_comm
    · rename_i below lowest rest
      split at done
      · obtain ⟨⟨merged, _⟩, once, done⟩ := (bind_eq_ok_iff _ _ _).mp done
        refine (ih _ (by simp) _ _ _ done rfl).trans (List.Perm.append_left _ ?_)
        refine ((perm_of_mergeRuns _ _ _ _ _ _ once).append_right _).trans ?_
        rw [List.append_assoc]
        exact List.perm_append_comm_assoc _ _ _
      · obtain ⟨⟨merged, _⟩, once, done⟩ := (bind_eq_ok_iff _ _ _).mp done
        refine (ih _ (by simp) _ _ _ done rfl).trans ?_
        refine ((perm_of_mergeRuns _ _ _ _ _ _ once).append_right _).trans ?_
        rw [List.append_assoc]
        exact List.perm_append_comm_assoc _ _ _

theorem perm_of_settle (less : α → α → Except ε Bool) (length start added limit learned : Nat)
    (pending before : List (Pending α))
    (done : settle less length start added limit pending = .ok (before, learned)) :
    (members before).Perm (members pending) := by
  cases pending with
  | nil =>
    cases done
    exact .refl _
  | cons top below =>
    obtain ⟨⟨⟨merged, rest⟩, _⟩, once, done⟩ := (bind_eq_ok_iff _ _ _).mp done
    cases done
    exact perm_of_collapse _ _ _ _ _ _ _ _ once

/-- Some members, and those after them up to a place, are the members up to the later place. -/
theorem take_append_drop_take (items : List α) (count place : Nat) :
    items.take count ++ (items.take place).drop count = items.take (max count place) := by
  rcases Nat.le_total count place with within | beyond
  · rw [Nat.max_eq_right within]
    have front : items.take count = (items.take place).take count := by
      rw [List.take_take, Nat.min_eq_left within]
    rw [front, List.take_append_drop]
  · rw [Nat.max_eq_left beyond, List.drop_of_length_le, List.append_nil]
    exact Nat.le_trans (List.length_take_le place items) beyond

theorem perm_of_sortFrom (less : α → α → Except ε Bool) (length least start limit : Nat)
    (pending : List (Pending α)) (items sorted : List α)
    (done : sortFrom less length least start limit pending items = .ok sorted) :
    sorted.Perm (members pending ++ items) := by
  induction size : items.length using Nat.strongRecOn
    generalizing start limit pending items with
  | _ size ih =>
    subst size
    unfold sortFrom at done
    split at done
    · rw [List.append_nil]
      split at done
      · cases done
        exact .refl _
      · exact perm_of_mergeAll _ _ _ _ _ done
    · rename_i a rest
      obtain ⟨⟨more, descends⟩, _, done⟩ := (bind_eq_ok_iff _ _ _).mp done
      obtain ⟨run, filled, done⟩ := (bind_eq_ok_iff _ _ _).mp done
      obtain ⟨⟨before, _⟩, merged, done⟩ := (bind_eq_ok_iff _ _ _).mp done
      have later := ih _ (by simp only [List.length_cons, List.length_drop]; omega) _ _ _ _ done rfl
      have added := (perm_of_insertAll _ _ _ _ filled).trans
        ((perm_of_leading descends a (rest.take more)).append_right _)
      have whole : (run ++ rest.drop (max more (least - 1))).Perm (a :: rest) := by
        refine (added.append_right _).trans ?_
        rw [List.cons_append, take_append_drop_take, List.cons_append, List.take_append_drop]
      refine later.trans ?_
      have moved := (perm_of_settle _ _ _ _ _ _ _ _ merged).append whole
      refine List.Perm.trans ?_ moved
      rw [members, List.flatMap_cons, List.append_assoc, ← members]
      exact List.perm_append_comm_assoc _ _ _

theorem perm_of_sort (less : α → α → Except ε Bool) (items sorted : List α)
    (done : sort less items = .ok sorted) : sorted.Perm items :=
  perm_of_sortFrom less _ _ _ _ [] items sorted done

end TokenTable.Sorting
