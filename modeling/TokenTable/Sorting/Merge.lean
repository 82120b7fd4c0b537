import TokenTable.Fallible
import TokenTable.Sorting.Search

/-! # Merging two runs

Two neighbouring runs are merged from the front or from the back, whichever copies less. Members are
taken one by one while neither run wins often in a row; then whole stretches are taken, whose
lengths are searched for. How many wins in a row count as often is learned as merging goes on. Main
statement: `perm_of_mergeRuns`, merging rearranges the members of both runs. -/

namespace TokenTable.Sorting

variable {ε α : Type}

/-- How members are taken: one by one, with the number of wins in a row of each run, or in
stretches, of the first run and then of the second. -/
inductive Pace where
  | steps (first second : Nat)
  | leapFirst
  | leapSecond (before : Nat)

/-- The number of members that makes a stretch worth searching for. -/
def worthLeaping : Nat := 7

/-- The pace after wins in a row, under the number of them that counts as often. -/
def Pace.afterWins (limit first second : Nat) : Pace :=
  if limit ≤ max first second then .leapFirst else .steps first second

/-- The pace after a stretch of each run. -/
def Pace.afterLeaps (first second : Nat) : Pace :=
  if worthLeaping ≤ max first second then .leapFirst else .steps 0 0

/-- The number of wins that counts as often after a stretch of each run: less if stretches were
worth searching for, more if not. -/
def limitAfterLeaps (limit first second : Nat) : Nat :=
  if worthLeaping ≤ max first second then max 1 (limit - 1) else limit + 1

/-- The rest of a merge in which nothing has to be compared any more. The greatest member of the
first run goes last, and the least one of the second goes first. -/
def settled? (side : Side) : List α → List α → Option (List α)
  | a, [] => some a
  | [], b => some b
  | a@(_ :: others), b@(_ :: others') =>
    match side with
    | .front => if others.isEmpty then some (b ++ a) else none
    | .back => if others'.isEmpty then some (a ++ b) else none

/-- The number of members at the near end of a run that go before a member of the other. -/
def reach (side : Side) (holds : α → Except ε Bool) (run : List α) : Except ε Nat :=
  match side with
  | .front => boundary .front holds run
  | .back => do return run.length - (← boundary .back holds run.reverse)

/-- Merges two runs, each given from its near end on. -/
def mergeFrom (side : Side) (less : α → α → Except ε Bool) (pace : Pace) (limit : Nat) :
    List α → List α → Except ε (List α × Nat)
  | x :: a, y :: b =>
    match settled? side (x :: a) (y :: b) with
    | some rest => .ok (rest, limit)
    | none =>
      match pace with
      | .steps first second => do
        if (← less y x) == (side == .front) then
          let (rest, learned) ←
            mergeFrom side less (.afterWins limit 0 (second + 1)) limit (x :: a) b
          return (y :: rest, learned)
        else
          let (rest, learned) ←
            mergeFrom side less (.afterWins limit (first + 1) 0) limit a (y :: b)
          return (x :: rest, learned)
      | .leapFirst => do
        let won ← reach side (fun m => return !(← less y m)) (x :: a)
        let (rest, learned) ←
          mergeFrom side less (.leapSecond won) limit ((x :: a).drop won) b
        return ((x :: a).take won ++ y :: rest, learned)
      | .leapSecond before => do
        let won ← reach side (fun m => less m x) (y :: b)
        match settled? side a ((y :: b).drop won) with
        | some rest => return ((y :: b).take won ++ x :: rest, limit)
        | none =>
          let (rest, learned) ←
            mergeFrom side less (.afterLeaps before won) (limitAfterLeaps limit before won)
              a ((y :: b).drop won)
          return ((y :: b).take won ++ x :: rest, learned)
  | a, b => .ok (a ++ b, limit)
termination_by a b => a.length + b.length
decreasing_by
  all_goals
    simp only [List.length_cons, List.length_drop]
    omega

/-- Merges two runs whose ends are out of place: the first member of the second run is the least,
and the last member of the first run the greatest. -/
def mergeOverlapping (less : α → α → Except ε Bool) (limit : Nat) (a b : List α) :
    Except ε (List α × Nat) :=
  if a.length ≤ b.length then
    match b with
    | [] => .ok (a, limit)
    | y :: b => do
      let (rest, learned) ← mergeFrom .front less (.steps 0 0) limit a b
      return (y :: rest, learned)
  else
    match a.reverse with
    | [] => .ok (b, limit)
    | x :: a => do
      let (rest, learned) ← mergeFrom .back less (.steps 0 0) limit a b.reverse
      return ((x :: rest).reverse, learned)

/-- Merges two neighbouring runs. What is in place at either end stays there. -/
def mergeRuns (less : α → α → Except ε Bool) (limit : Nat) (a b : List α) :
    Except ε (List α × Nat) :=
  match b with
  | [] => .ok (a, limit)
  | y :: _ => do
    let kept ← boundary .front (fun m => return !(← less y m)) a
    match (a.drop kept).getLast? with
    | none => return (a ++ b, limit)
    | some x =>
      let used ← boundary .back (fun m => less m x) b
      let (merged, learned) ←
        mergeOverlapping less limit (a.drop kept) (b.take used)
      return (a.take kept ++ (merged ++ b.drop used), learned)

theorem perm_of_settled (side : Side) (a b rest : List α) (done : settled? side a b = some rest) :
    rest.Perm (a ++ b) := by
  match a, b with
  | a, [] =>
    cases done
    rw [List.append_nil]
  | [], _ :: _ =>
    cases done
    exact .refl _
  | x :: a, y :: b =>
    cases side with
    | front =>
      obtain ⟨_, same⟩ := Option.ite_none_right_eq_some.mp done
      cases same
      exact List.perm_append_comm
    | back =>
      obtain ⟨_, same⟩ := Option.ite_none_right_eq_some.mp done
      cases same
      exact .refl _

/-- Members taken from the front of the second list and then one of the first, before the rest. -/
theorem perm_of_taken (a b rest : List α) (x : α) (count : Nat)
    (later : rest.Perm (a ++ b.drop count)) :
    (b.take count ++ x :: rest).Perm (x :: a ++ b) := by
  refine List.perm_middle.trans (List.Perm.cons x ?_)
  refine (later.append_left _).trans ((List.perm_append_comm_assoc _ _ _).trans ?_)
  rw [List.take_append_drop]
  exact .refl _

theorem perm_of_mergeFrom (side : Side) (less : α → α → Except ε Bool) (pace : Pace)
    (limit learned : Nat) (a b merged : List α)
    (done : mergeFrom side less pace limit a b = .ok (merged, learned)) :
    merged.Perm (a ++ b) := by
  induction size : a.length + b.length using Nat.strongRecOn
    generalizing pace limit a b merged learned with
  | _ size ih =>
    subst size
    unfold mergeFrom at done
    split at done
    · rename_i x a y b
      split at done
      · rename_i rest early
        cases done
        exact perm_of_settled side _ _ _ early
      · split at done
        · obtain ⟨second, _, done⟩ := (bind_eq_ok_iff _ _ _).mp done
          split at done
          · obtain ⟨⟨rest, _⟩, later, done⟩ := (bind_eq_ok_iff _ _ _).mp done
            cases done
            have smaller := ih _ (by simp only [List.length_cons]; omega) _ _ _ _ _ _ later rfl
            exact (smaller.cons y).trans List.perm_middle.symm
          · obtain ⟨⟨rest, _⟩, later, done⟩ := (bind_eq_ok_iff _ _ _).mp done
            cases done
            exact (ih _ (by simp only [List.length_cons]; omega) _ _ _ _ _ _ later rfl).cons x
        · obtain ⟨won, _, done⟩ := (bind_eq_ok_iff _ _ _).mp done
          obtain ⟨⟨rest, _⟩, later, done⟩ := (bind_eq_ok_iff _ _ _).mp done
          cases done
          have smaller := ih _ (by simp only [List.length_cons, List.length_drop]; omega)
            _ _ _ _ _ _ later rfl
          have taken := perm_of_taken b (x :: a) rest y won (smaller.trans List.perm_append_comm)
          exact taken.trans List.perm_append_comm
        · obtain ⟨won, _, done⟩ := (bind_eq_ok_iff _ _ _).mp done
          split at done
          · rename_i rest early
            cases done
            exact perm_of_taken a (y :: b) rest x won (perm_of_settled side _ _ _ early)
          · obtain ⟨⟨rest, _⟩, later, done⟩ := (bind_eq_ok_iff _ _ _).mp done
            cases done
            have smaller := ih _ (by simp only [List.length_cons, List.length_drop]; omega)
              _ _ _ _ _ _ later rfl
            exact perm_of_taken a (y :: b) rest x won smaller
    · cases done
      exact .refl _

theorem perm_of_mergeOverlapping (less : α → α → Except ε Bool) (limit learned : Nat)
    (a b merged : List α) (done : mergeOverlapping less limit a b = .ok (merged, learned)) :
    merged.Perm (a ++ b) := by
  unfold mergeOverlapping at done
  split at done
  · split at done
    · cases done
      rw [List.append_nil]
    · obtain ⟨⟨rest, _⟩, later, done⟩ := (bind_eq_ok_iff _ _ _).mp done
      cases done
      exact ((perm_of_mergeFrom _ _ _ _ _ _ _ _ later).cons _).trans List.perm_middle.symm
  · split at done
    · rename_i none
      cases done
      rw [List.reverse_eq_nil_iff.mp none, List.nil_append]
    · rename_i x others backwards
      obtain ⟨⟨rest, _⟩, later, done⟩ := (bind_eq_ok_iff _ _ _).mp done
      cases done
      refine (List.reverse_perm _).trans ?_
      have all := (perm_of_mergeFrom _ _ _ _ _ _ _ _ later).cons x
      refine all.trans ?_
      rw [← List.cons_append, ← backwards]
      exact (List.reverse_perm a).append (List.reverse_perm b)

theorem perm_of_mergeRuns (less : α → α → Except ε Bool) (limit learned : Nat)
    (a b merged : List α) (done : mergeRuns less limit a b = .ok (merged, learned)) :
    merged.Perm (a ++ b) := by
  unfold mergeRuns at done
  split at done
  · cases done
    rw [List.append_nil]
  · rename_i y others
    obtain ⟨kept, _, done⟩ := (bind_eq_ok_iff _ _ _).mp done
    split at done
    · cases done
      exact .refl _
    · obtain ⟨used, _, done⟩ := (bind_eq_ok_iff _ _ _).mp done
      obtain ⟨⟨middle, _⟩, later, done⟩ := (bind_eq_ok_iff _ _ _).mp done
      cases done
      have overlapping := perm_of_mergeOverlapping _ _ _ _ _ _ later
      refine ((overlapping.append_right _).append_left _).trans ?_
      rw [List.append_assoc, List.take_append_drop, ← List.append_assoc, List.take_append_drop]

end TokenTable.Sorting
