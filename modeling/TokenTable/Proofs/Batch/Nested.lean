import TokenTable.Proofs.Batch.Observed
import TokenTable.Proofs.Batch.Slices

/-! # A batch as nested loops

The queue of pages works like two nested loops, over the slices of the entries and over the
attempts at each slice: all retries of a slice come before the next slice is sent. The loops here
(`Plan.trySlice`, `Plan.trySlices`) know no queue, tell by themselves when an attempt asks and when
it pauses (`Plan.attempt`), and both end. Main statement: `carryOut_eq_trySlices`, in every world a
batch does what the loops do, event by event, and its number of submissions is bounded whatever the
store answers.
-/

namespace TokenTable.Batch

namespace Plan

variable {ω : Type}

/-- One attempt at a page of a slice: the cancellation is asked first, if there is one, then comes a
pause, if the plan has pauses and this is not the first attempt, and then the page is submitted.
What is left of the page is tried again or given up. -/
def attempt (plan : Plan ω) (later : List (List Entry)) (number : Nat) (page : List Entry)
    (gathered : List Value) (again : List Entry → List Value → Run ω (List Value)) :
    Run ω (List Value) := do
  if ← (match plan.cancelled with
      | none => pure false
      | some poll => poll) then
    let items ← plan.report gathered
    throw (.cancelledBatch plan.operation ((page ++ later.flatten).map Entry.source) items)
  else
    (match plan.pause with
      | none => pure ()
      | some pause => if number = 0 then pure () else do pause (.float (← backoff number)))
    let reply ← plan.submit (page.map Entry.native)
    let gathered := gathered ++ reply.gathered
    if reply.unprocessed.isGiven then
      let left ← remainder plan.restore page reply.unprocessed
      again left gathered
    else return gathered

/-- Gives up a slice of which something is left. -/
def giveUp (plan : Plan ω) (left : List Entry) (gathered : List Value) : Run ω (List Value) := do
  let items ← plan.report gathered
  throw (.partialBatch plan.operation (left.map Entry.source) items)

/-- The attempts at a slice from a number on, of which `more` may follow the first. -/
def trySlice (plan : Plan ω) (later : List (List Entry)) :
    (more number : Nat) → List Entry → List Value → Run ω (List Value)
  | 0, number, page, gathered => plan.attempt later number page gathered plan.giveUp
  | more + 1, number, page, gathered =>
    plan.attempt later number page gathered (plan.trySlice later more (number + 1))

/-- The slices one after the other, each with all its attempts. -/
def trySlices (plan : Plan ω) : List (List Entry) → List Value → Run ω (List Value)
  | [], gathered => pure gathered
  | slice :: later, gathered => do
    plan.trySlices later (← plan.trySlice later plan.retries 0 slice gathered)

theorem sources_cons_untried (page : List Entry) (number : Nat) (later : List (List Entry)) :
    sources (⟨page, number⟩ :: untried later) = (page ++ later.flatten).map Entry.source := by
  induction later with
  | nil => simp [sources, untried]
  | cons slice later ih =>
      have step : sources (untried (slice :: later)) =
          slice.map Entry.source ++ sources (untried later) := by
        simp only [sources, untried, List.map_cons, List.flatMap_cons]
      have whole : ∀ queue, sources (⟨page, number⟩ :: queue) =
          page.map Entry.source ++ sources queue := by
        intro queue
        simp only [sources, List.flatMap_cons]
      rw [whole, List.map_append, List.append_cancel_left_eq] at ih
      rw [whole, step, ih, List.flatten_cons, List.map_append, List.map_append]

theorem giveUp_bind (plan : Plan ω) (left : List Entry) (gathered : List Value)
    (next : List Value → Run ω (List Value)) :
    plan.giveUp left gathered >>= next = plan.giveUp left gathered := by
  simp only [giveUp, bind_assoc, Run.throw_bind]

/-- Draining makes one attempt at the first page and goes on as the queue does: with what is left
of the page while retries are allowed, and with the later slices once the page is finished. -/
theorem drain_eq_attempt (plan : Plan ω) (later : List (List Entry)) (number : Nat)
    (page : List Entry) (gathered : List Value)
    (again : List Entry → List Value → Run ω (List Value))
    (goesOn : ∀ left collected,
      (if number < plan.retries then plan.drain (⟨left, number + 1⟩ :: untried later) collected
        else plan.giveUp left collected) = again left collected >>= plan.drain (untried later)) :
    plan.drain (⟨page, number⟩ :: untried later) gathered =
      plan.attempt later number page gathered again >>= plan.drain (untried later) := by
  rw [drain_cons, turn, attempt]
  simp only [isCancelled, wait, bind_assoc]
  apply bind_congr
  intro cancelled
  cases cancelled with
  | true =>
      simp only [↓reduceIte, bind_assoc, Run.throw_bind, sources_cons_untried]
  | false =>
      simp only [Bool.false_eq_true, ↓reduceIte, bind_assoc]
      apply bind_congr
      intro _
      apply bind_congr
      intro reply
      cases given : reply.unprocessed.isGiven with
      | false => simp only [Bool.false_eq_true, ↓reduceIte, pure_bind]
      | true =>
          simp only [↓reduceIte, bind_assoc]
          apply bind_congr
          intro left
          rw [← goesOn]
          by_cases allowed : number < plan.retries
          · simp only [allowed, ↓reduceIte, pure_bind]
          · simp only [allowed, ↓reduceIte, giveUp, bind_assoc, Run.throw_bind]

/-- A queue with one page under way first makes all attempts at that page. -/
theorem drain_cons_untried (plan : Plan ω) (later : List (List Entry)) (more number : Nat)
    (budget : number + more = plan.retries) (page : List Entry) (gathered : List Value) :
    plan.drain (⟨page, number⟩ :: untried later) gathered =
      plan.trySlice later more number page gathered >>= plan.drain (untried later) := by
  induction more generalizing number page gathered with
  | zero =>
      rw [trySlice]
      refine drain_eq_attempt plan later number page gathered _ fun left collected => ?_
      have last : ¬ number < plan.retries := by omega
      rw [if_neg last, giveUp_bind]
  | succ more ih =>
      rw [trySlice]
      refine drain_eq_attempt plan later number page gathered _ fun left collected => ?_
      have allowed : number < plan.retries := by omega
      rw [if_pos allowed]
      exact ih (number + 1) (by omega) left collected

/-- A queue of slices that were not tried yet is drained slice by slice. -/
theorem drain_untried (plan : Plan ω) (slices : List (List Entry)) (gathered : List Value) :
    plan.drain (untried slices) gathered = plan.trySlices slices gathered := by
  induction slices generalizing gathered with
  | nil =>
      rw [trySlices]
      exact drain_nil plan gathered
  | cons slice later ih =>
      have first := drain_cons_untried plan later plan.retries 0 (Nat.zero_add _) slice gathered
      rw [trySlices]
      refine first.trans (bind_congr fun collected => ?_)
      exact ih collected

/-- A batch tries the slices of its entries one after the other. -/
theorem carryOut_eq (plan : Plan ω) (pageSize : Nat) (entries : List Entry)
    (positive : 0 < pageSize) :
    plan.carryOut pageSize entries = plan.trySlices (slicesOf pageSize entries) [] := by
  rw [carryOut, chunks_eq_slicesOf pageSize entries positive]
  exact drain_untried plan _ []

end Plan

/-- The number of calls that an operation adds to the journal is bounded. -/
def AddsCalls {ω κ α : Type} (bound : Nat) (action : Run (Journaled ω κ) α) : Prop :=
  ∀ world journal, (Event.calls (action.outcome (world, journal)).2.2).length ≤
    (Event.calls journal).length + bound

namespace AddsCalls

variable {ω κ α β : Type}

theorem pure (a : α) : AddsCalls 0 (Pure.pure a : Run (Journaled ω κ) α) :=
  fun _ _ => Nat.le_refl _

theorem throw (fault : Fault) :
    AddsCalls 0 (MonadExcept.throw fault : Run (Journaled ω κ) α) :=
  fun _ _ => Nat.le_refl _

theorem lift (result : Except Fault α) :
    AddsCalls 0 (liftM result : Run (Journaled ω κ) α) :=
  fun _ _ => Nat.le_refl _

theorem mono {first second : Nat} {action : Run (Journaled ω κ) α} (adds : AddsCalls first action)
    (within : first ≤ second) : AddsCalls second action :=
  fun world journal => Nat.le_trans (adds world journal) (Nat.add_le_add_left within _)

/-- The bounds of two operations add up when one follows the other. -/
theorem bind {first second : Nat} {action : Run (Journaled ω κ) α}
    {next : α → Run (Journaled ω κ) β} (early : AddsCalls first action)
    (late : ∀ a, AddsCalls second (next a)) : AddsCalls (first + second) (action >>= next) := by
  intro world journal
  have before := early world journal
  rw [Run.outcome_bind]
  rcases result : action.outcome (world, journal) with ⟨fault | a, middle, between⟩
  · rw [result] at before
    simp only at before ⊢
    omega
  · rw [result] at before
    have after := late a middle between
    simp only at before ⊢
    omega

theorem of_silent {action : Run (Journaled ω κ) α} (silent : Run.Silent action) :
    AddsCalls 0 action := by
  intro world journal
  rw [silent (world, journal)]
  exact Nat.le_refl _

/-- An operation without calls leaves the bound to what follows it. -/
theorem after_silent {bound : Nat} {action : Run (Journaled ω κ) α}
    {next : α → Run (Journaled ω κ) β} (silent : AddsCalls 0 action)
    (follows : ∀ a, AddsCalls bound (next a)) : AddsCalls bound (action >>= next) := by
  have both := silent.bind follows
  rwa [Nat.zero_add] at both

end AddsCalls

namespace Plan

variable {ω : Type}

theorem addsCalls_submit (plan : Plan ω) (page : List Value) :
    AddsCalls 1 (plan.journaled.submit page) := by
  intro world journal
  simp [journaled, Event.calls]

theorem addsCalls_attempt (plan : Plan ω) (later : List (List Entry)) (number bound : Nat)
    (page : List Entry) (gathered : List Value)
    {again : List Entry → List Value → Run (Journaled ω (List Value)) (List Value)}
    (follows : ∀ left collected, AddsCalls bound (again left collected)) :
    AddsCalls (1 + bound) (plan.journaled.attempt later number page gathered again) := by
  have asks : AddsCalls 0 plan.journaled.isCancelled := .of_silent (silent_isCancelled rfl)
  have waits : ∀ attempt, AddsCalls 0 (plan.journaled.wait attempt) := fun attempt =>
    .of_silent (silent_wait rfl attempt)
  apply asks.after_silent
  intro cancelled
  cases cancelled with
  | true =>
      apply (AddsCalls.lift _).after_silent
      intro items
      exact (AddsCalls.throw _).mono (Nat.zero_le _)
  | false =>
      apply (waits number).after_silent
      intro _
      apply (plan.addsCalls_submit _).bind
      intro reply
      cases reply.unprocessed.isGiven with
      | false =>
          simp only [Bool.false_eq_true, ↓reduceIte]
          exact (AddsCalls.pure _).mono (Nat.zero_le _)
      | true =>
          simp only [↓reduceIte]
          exact (AddsCalls.lift _).after_silent fun left => follows left _

theorem addsCalls_trySlice (plan : Plan ω) (later : List (List Entry)) (more number : Nat)
    (page : List Entry) (gathered : List Value) :
    AddsCalls (more + 1) (plan.journaled.trySlice later more number page gathered) := by
  induction more generalizing number page gathered with
  | zero =>
      refine plan.addsCalls_attempt later number 0 page gathered fun left collected => ?_
      exact (AddsCalls.lift _).after_silent fun items => .throw _
  | succ more ih =>
      rw [Nat.add_comm]
      exact plan.addsCalls_attempt later number _ page gathered fun left collected =>
        ih (number + 1) left collected

theorem addsCalls_trySlices (plan : Plan ω) (slices : List (List Entry)) (gathered : List Value) :
    AddsCalls (slices.length * (plan.retries + 1)) (plan.journaled.trySlices slices gathered) := by
  induction slices generalizing gathered with
  | nil => exact (AddsCalls.pure gathered).mono (Nat.zero_le _)
  | cons slice later ih =>
      rw [List.length_cons, Nat.succ_mul, Nat.add_comm]
      exact (plan.addsCalls_trySlice later plan.retries 0 slice gathered).bind ih

/-- **A batch is two nested loops.** The slices of the entries are consecutive, all full but perhaps
the last and none empty, and a batch tries them one after the other, each with all its attempts.
Beside a journal, it asks, pauses and submits in the order in which the loops do, ends as they do,
and never submits more often than there are slices and attempts. -/
theorem carryOut_eq_trySlices (plan : Plan ω) (pageSize : Nat) (positive : 0 < pageSize)
    (entries : List Entry) :
    IsSlicing pageSize entries (slicesOf pageSize entries) ∧
      plan.carryOut pageSize entries = plan.trySlices (slicesOf pageSize entries) [] ∧
      ∀ world, ∃ result after journal,
        (plan.carryOut pageSize entries).outcome world = (result, after) ∧
        (plan.journaled.carryOut pageSize entries).outcome (world, []) =
          (result, (after, journal)) ∧
        (plan.journaled.trySlices (slicesOf pageSize entries) []).outcome (world, []) =
          (result, (after, journal)) ∧
        (Event.calls journal).length ≤
          (entries.length + pageSize - 1) / pageSize * (plan.retries + 1) := by
  have loops := plan.carryOut_eq pageSize entries positive
  have beside := plan.journaled.carryOut_eq pageSize entries positive
  obtain ⟨isSlicing, count⟩ : IsSlicing pageSize entries (slicesOf pageSize entries) ∧
      (slicesOf pageSize entries).length = (entries.length + pageSize - 1) / pageSize := by
    refine ⟨isSlicing_slicesOf pageSize entries positive, ?_⟩
    rw [slicesOf, List.length_map, List.length_range, sliceCount]
  refine ⟨isSlicing, loops, fun world => ?_⟩
  obtain ⟨journal, same⟩ := plan.mirrors_journaled.keeps_carryOut pageSize entries world []
  have bound := plan.addsCalls_trySlices (slicesOf pageSize entries) [] world []
  rw [← beside, same, count] at bound
  refine ⟨_, _, journal, rfl, same, ?_, ?_⟩
  · rw [← beside]
    exact same
  · simpa [Event.calls] using bound

/-- A plan for a store that leaves so many entries of each page as its schedule says. -/
def scheduled (retries : Nat) : Plan (List Nat) where
  operation := "batch_put"
  submit page := .ofOutcome fun schedule =>
    (.ok ⟨[], .list (page.drop (page.length - schedule.headD 0))⟩, schedule.tail)
  restore := .ok
  report := .ok
  retries := retries
  pause := none
  cancelled := none

/-- Three entries in pages of two take at most four calls with one retry. -/
theorem calls_scheduled :
    0 < 2 ∧ ∃ result after journal,
      ((scheduled 1).carryOut 2 (.replicate 3 ⟨.map [], .map []⟩)).outcome [1, 0, 2] =
          (result, after) ∧
        ((scheduled 1).journaled.trySlices
            (slicesOf 2 (.replicate 3 ⟨.map [], .map []⟩)) []).outcome ([1, 0, 2], []) =
          (result, (after, journal)) ∧
        (Event.calls journal).length ≤ 4 := by
  have positive : 0 < 2 := Nat.two_pos
  obtain ⟨_, _, runs⟩ :=
    carryOut_eq_trySlices (scheduled 1) 2 positive (.replicate 3 ⟨.map [], .map []⟩)
  obtain ⟨result, after, journal, bare, _, loops, bound⟩ := runs [1, 0, 2]
  exact ⟨positive, result, after, journal, bare, loops, bound⟩

end Plan

end TokenTable.Batch
