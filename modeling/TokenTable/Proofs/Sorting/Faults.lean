import TokenTable.Proofs.Fallible
import TokenTable.Sorting.Basic

/-! # A sort fails only where a comparison does

Searching, merging and inserting add no faults to those of the comparisons that they make. Main
statement: `failsOnly_sort`.
-/

namespace TokenTable.Sorting

variable {ε α : Type} {allowed : ε → Prop}

theorem failsOnly_holdsAt {holds : α → Except ε Bool} (each : ∀ a, FailsOnly allowed (holds a))
    (run : List α) (place : Nat) : FailsOnly allowed (holdsAt holds run place) := by
  unfold holdsAt
  split
  · exact each _
  · exact .ok false

theorem failsOnly_halve {holds : Nat → Except ε Bool} (each : ∀ n, FailsOnly allowed (holds n))
    (low high : Nat) : FailsOnly allowed (halve holds low high) := by
  fun_induction halve holds low high with
  | case1 low high within middle later earlier =>
      exact (each middle).bind fun held => .ite later earlier
  | case2 low high => exact .ok high

theorem failsOnly_stride {holds : Nat → Except ε Bool} (each : ∀ n, FailsOnly allowed (holds n))
    (bound last next : Nat) : FailsOnly allowed (stride holds bound last next) := by
  fun_induction stride holds bound last next with
  | case1 last next within ih => exact (each next).bind fun held => .ite ih (.pure _)
  | case2 last next => exact .ok _

theorem failsOnly_boundary (side : Side) {holds : α → Except ε Bool}
    (each : ∀ a, FailsOnly allowed (holds a)) (run : List α) :
    FailsOnly allowed (boundary side holds run) := by
  have asked := failsOnly_holdsAt each run
  unfold boundary
  cases side with
  | front =>
      refine (asked 0).bind fun held => .ite ?_ (.pure 0)
      exact (failsOnly_stride asked _ 0 1).bind fun strides => failsOnly_halve asked _ _
  | back =>
      refine (asked _).bind fun held => .ite (.pure _) ?_
      have apart := fun distance => (asked (run.length - 1 - distance)).negate
      exact (failsOnly_stride apart _ 0 1).bind fun strides => failsOnly_halve asked _ _

variable {less : α → α → Except ε Bool}

theorem failsOnly_stretch {goesOn : α → α → Except ε Bool}
    (each : ∀ a b, FailsOnly allowed (goesOn a b)) (last : α) (items : List α) :
    FailsOnly allowed (stretch goesOn last items) := by
  induction items generalizing last with
  | nil => exact .ok 0
  | cons a rest ih =>
      refine (each last a).bind fun goes => .ite ?_ (.pure 0)
      exact (ih a).bind fun more => .pure _

theorem failsOnly_leadingRun (each : ∀ a b, FailsOnly allowed (less a b)) (a : α)
    (items : List α) : FailsOnly allowed (leadingRun less a items) := by
  cases items with
  | nil => exact .ok _
  | cons b rest =>
      apply (each b a).bind
      intro descends
      refine (failsOnly_stretch (fun last next => ?_) b rest).bind fun more => .pure _
      exact (each next last).bind fun comes => .pure _

theorem failsOnly_insert (each : ∀ a b, FailsOnly allowed (less a b)) (a : α) (run : List α) :
    FailsOnly allowed (insert less a run) := by
  induction size : run.length using Nat.strongRecOn generalizing run with
  | _ size ih =>
      subst size
      unfold insert
      split
      · exact .ok _
      · rename_i front pivot after parts
        rw [List.splitAt_eq, Prod.mk.injEq] at parts
        have whole := congrArg List.length (List.take_append_drop (run.length / 2) run)
        rw [parts.1, parts.2, List.length_append, List.length_cons] at whole
        refine (each a pivot).bind fun comes => .ite ?_ ?_
        · exact (ih front.length (by omega) front rfl).bind fun inserted => .pure _
        · exact (ih after.length (by omega) after rfl).bind fun inserted => .pure _

theorem failsOnly_insertAll (each : ∀ a b, FailsOnly allowed (less a b)) (run items : List α) :
    FailsOnly allowed (insertAll less run items) := by
  induction items generalizing run with
  | nil => exact .ok run
  | cons a rest ih => exact (failsOnly_insert each a run).bind ih

theorem failsOnly_reach (side : Side) {holds : α → Except ε Bool}
    (each : ∀ a, FailsOnly allowed (holds a)) (run : List α) :
    FailsOnly allowed (reach side holds run) := by
  cases side with
  | front => exact failsOnly_boundary .front each run
  | back => exact (failsOnly_boundary .back each run.reverse).bind fun place => .pure _

theorem failsOnly_mergeFrom (each : ∀ a b, FailsOnly allowed (less a b)) (side : Side)
    (pace : Pace) (limit : Nat) (a b : List α) :
    FailsOnly allowed (mergeFrom side less pace limit a b) := by
  induction size : a.length + b.length using Nat.strongRecOn generalizing pace limit a b with
  | _ size ih =>
      subst size
      unfold mergeFrom
      split
      · rename_i x a y b
        split
        · exact .ok _
        · split
          · refine (each y x).bind fun second => .ite ?_ ?_
            · exact (ih _ (by simp only [List.length_cons]; omega) _ _ _ _ rfl).bind
                fun merged => .pure _
            · exact (ih _ (by simp only [List.length_cons]; omega) _ _ _ _ rfl).bind
                fun merged => .pure _
          · have wins := fun m => (each y m).negate
            apply (failsOnly_reach side wins (x :: a)).bind
            intro won
            have smaller : ((x :: a).drop won).length + b.length <
                (x :: a).length + (y :: b).length := by
              simp only [List.length_cons, List.length_drop]
              omega
            exact (ih _ smaller _ _ _ _ rfl).bind fun merged => .pure _
          · rename_i before
            apply (failsOnly_reach side (fun m => each m x) (y :: b)).bind
            intro won
            split
            · exact .pure _
            · have smaller : a.length + ((y :: b).drop won).length <
                  (x :: a).length + (y :: b).length := by
                simp only [List.length_cons, List.length_drop]
                omega
              exact (ih _ smaller _ _ _ _ rfl).bind fun merged => .pure _
      · exact .ok _

theorem failsOnly_mergeOverlapping (each : ∀ a b, FailsOnly allowed (less a b)) (limit : Nat)
    (a b : List α) : FailsOnly allowed (mergeOverlapping less limit a b) := by
  unfold mergeOverlapping
  refine .ite ?_ ?_
  · cases b with
    | nil => exact .ok _
    | cons y b => exact (failsOnly_mergeFrom each _ _ _ _ _).bind fun merged => .pure _
  · split
    · exact .ok _
    · exact (failsOnly_mergeFrom each _ _ _ _ _).bind fun merged => .pure _

theorem failsOnly_mergeRuns (each : ∀ a b, FailsOnly allowed (less a b)) (limit : Nat)
    (a b : List α) : FailsOnly allowed (mergeRuns less limit a b) := by
  cases b with
  | nil => exact .ok _
  | cons y b =>
      have kept := fun m => (each y m).negate
      apply (failsOnly_boundary .front kept a).bind
      intro place
      split
      · exact .pure _
      · apply (failsOnly_boundary .back (fun m => each m _) (y :: b)).bind
        intro used
        exact (failsOnly_mergeOverlapping each _ _ _).bind fun merged => .pure _

theorem failsOnly_collapse (each : ∀ a b, FailsOnly allowed (less a b)) (power limit : Nat)
    (top : List α) (pending : List (Pending α)) :
    FailsOnly allowed (collapse less power limit top pending) := by
  induction pending generalizing limit top with
  | nil => exact .ok _
  | cons below rest ih =>
      refine .ite ?_ (.pure _)
      exact (failsOnly_mergeRuns each _ _ _).bind fun merged => ih _ _

theorem failsOnly_mergeAll (each : ∀ a b, FailsOnly allowed (less a b)) (limit : Nat)
    (top : List α) (pending : List (Pending α)) :
    FailsOnly allowed (mergeAll less limit top pending) := by
  fun_induction mergeAll less limit top pending with
  | case1 limit top => exact .ok top
  | case2 limit top below =>
      exact (failsOnly_mergeRuns each _ _ _).bind fun merged => .pure _
  | case3 limit top below lowest rest shorter ih =>
      exact (failsOnly_mergeRuns each _ _ _).bind fun merged => ih _ _
  | case4 limit top below lowest rest longer ih =>
      exact (failsOnly_mergeRuns each _ _ _).bind fun merged => ih _ _

theorem failsOnly_settle (each : ∀ a b, FailsOnly allowed (less a b))
    (length start added limit : Nat) (pending : List (Pending α)) :
    FailsOnly allowed (settle less length start added limit pending) := by
  cases pending with
  | nil => exact .ok _
  | cons top below => exact (failsOnly_collapse each _ _ _ _).bind fun merged => .pure _

theorem failsOnly_sortFrom (each : ∀ a b, FailsOnly allowed (less a b))
    (length least start limit : Nat) (pending : List (Pending α)) (items : List α) :
    FailsOnly allowed (sortFrom less length least start limit pending items) := by
  induction size : items.length using Nat.strongRecOn generalizing start limit pending items with
  | _ size ih =>
      subst size
      unfold sortFrom
      split
      · split
        · exact .ok _
        · exact failsOnly_mergeAll each _ _ _
      · rename_i a rest
        apply (failsOnly_leadingRun each a rest).bind
        intro leads
        apply (failsOnly_insertAll each _ _).bind
        intro run
        apply (failsOnly_settle each _ _ _ _ _).bind
        intro settled
        exact ih _ (by simp only [List.length_cons, List.length_drop]; omega) _ _ _ _ rfl

/-- **A sort fails only as a comparison does.** -/
theorem failsOnly_sort (each : ∀ a b, FailsOnly allowed (less a b)) (items : List α) :
    FailsOnly allowed (sort less items) := failsOnly_sortFrom each _ _ _ _ _ _

end TokenTable.Sorting
