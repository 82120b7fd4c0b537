import TokenTable.Fallible

/-! # Searching a run from one of its ends

Members of a run satisfy a condition up to some place and not from there on. The place is found by
asking at distances one, three, seven and so on from an end, and then by halving what is left
between the last two questions. Main statement: `halve_le`, a place between two bounds does not
exceed the upper one. -/

namespace TokenTable.Sorting

variable {ε α : Type}

/-- Where the two lists of a merge are worked off from. -/
inductive Side where
  | front
  | back
deriving DecidableEq, Repr

/-- Whether a condition holds of the member at a place. -/
def holdsAt (holds : α → Except ε Bool) (run : List α) (place : Nat) : Except ε Bool :=
  match run[place]? with
  | some a => holds a
  | none => .ok false

/-- The place between two bounds from which on a condition does not hold. -/
def halve (holds : Nat → Except ε Bool) (low high : Nat) : Except ε Nat :=
  if low < high then do
    let middle := low + (high - low) / 2
    if ← holds middle then halve holds (middle + 1) high else halve holds low middle
  else .ok high
termination_by high - low

/-- The last distance at which a condition held, and the next one, which is cut at a bound. -/
def stride (holds : Nat → Except ε Bool) (bound last next : Nat) : Except ε (Nat × Nat) :=
  if next < bound then do
    if ← holds next then stride holds bound next (2 * next + 1) else return (last, next)
  else .ok (last, min next bound)
termination_by bound - next

/-- The number of members in front of which a condition holds, searched from an end of a run. -/
def boundary (side : Side) (holds : α → Except ε Bool) (run : List α) : Except ε Nat := do
  let asked := holdsAt holds run
  match side with
  | .front =>
    if ← asked 0 then
      let (last, next) ← stride asked run.length 0 1
      halve asked (last + 1) next
    else return 0
  | .back =>
    let farthest := run.length - 1
    if ← asked farthest then return run.length
    else
      let (last, next) ← stride (fun distance => return !(← asked (farthest - distance)))
        run.length 0 1
      halve asked (run.length - next) (farthest - last)

theorem halve_le (holds : Nat → Except ε Bool) (low high place : Nat)
    (found : halve holds low high = .ok place) : place ≤ high := by
  induction size : high - low using Nat.strongRecOn generalizing low high with
  | _ size ih =>
    subst size
    unfold halve at found
    split at found
    · obtain ⟨held, _, found⟩ := (bind_eq_ok_iff _ _ _).mp found
      split at found
      · exact ih _ (by omega) _ _ found rfl
      · exact Nat.le_trans (ih _ (by omega) _ _ found rfl) (by omega)
    · cases found
      exact Nat.le_refl _

end TokenTable.Sorting
