import TokenTable.Batch.Pages
import Mathlib.Logic.Relation

/-! # Turns of a page queue

A batch is carried out turn by turn. A turn works off the first page of the queue: the page is
finished, comes back to the front with what is left of it, or ends the batch. Draining a queue is
taking turns until it is empty (`drain_cons`), and turns leave less work (`turn_induct`). So what
every turn preserves holds between any two pages of a run, and a batch ends where one of its turns
does (`reaches_of_drain_ok`, `reaches_of_drain_error`).
-/

namespace TokenTable.Batch

/-- What is left to send and what was gathered, between two pages. -/
structure Progress where
  queue : List Page
  gathered : List Value

/-- All entries that are still queued. -/
def Progress.entries (progress : Progress) : List Entry := progress.queue.flatMap Page.entries

namespace Plan

variable {ω : Type}

/-- The queue of slices that were not tried yet. -/
def untried (slices : List (List Entry)) : List Page := slices.map fun slice => ⟨slice, 0⟩

/-- Works off the first page of a queue. -/
def turn (plan : Plan ω) (page : Page) (later : List Page) (gathered : List Value) :
    Run ω Progress := do
  if ← plan.isCancelled then
    let items ← plan.report gathered
    throw (.cancelledBatch plan.operation (sources (page :: later)) items)
  else
    plan.wait page.attempt
    let reply ← plan.submit (page.entries.map Entry.native)
    let gathered := gathered ++ reply.gathered
    if reply.unprocessed.isGiven then
      let left ← remainder plan.restore page.entries reply.unprocessed
      if page.attempt < plan.retries then
        return { queue := ⟨left, page.attempt + 1⟩ :: later, gathered }
      else
        let items ← plan.report gathered
        throw (.partialBatch plan.operation (left.map Entry.source) items)
    else return { queue := later, gathered }

theorem drain_nil (plan : Plan ω) (gathered : List Value) :
    plan.drain [] gathered = pure gathered := by
  rw [drain]

/-- Draining a queue takes one turn and drains what that turn leaves. -/
theorem drain_cons (plan : Plan ω) (page : Page) (later : List Page) (gathered : List Value) :
    plan.drain (page :: later) gathered =
      plan.turn page later gathered >>= fun next => plan.drain next.queue next.gathered := by
  rw [drain, turn]
  simp only [bind_assoc]
  apply bind_congr
  intro cancelled
  cases cancelled with
  | true =>
      apply Run.ext
      intro world
      simp
  | false =>
      simp only [Bool.false_eq_true, ↓reduceIte, bind_assoc]
      apply bind_congr
      intro _
      apply bind_congr
      intro reply
      cases given : reply.unprocessed.isGiven with
      | false => simp only [Bool.not_false, Bool.false_eq_true, ↓reduceIte, pure_bind]
      | true =>
          simp only [Bool.not_true, Bool.false_eq_true, ↓reduceIte, bind_assoc]
          apply bind_congr
          intro left
          by_cases allowed : page.attempt < plan.retries
          · simp only [allowed, ↓reduceIte, ↓reduceDIte, pure_bind]
          · apply Run.ext
            intro world
            simp [allowed]

/-- The store has answered a page: the batch was not cancelled before, and the wait is over. -/
def Submits (plan : Plan ω) (page : Page) (world : ω) (reply : Reply) (after : ω) : Prop :=
  ∃ polled waited, plan.isCancelled.outcome world = (.ok false, polled) ∧
    (plan.wait page.attempt).outcome polled = (.ok (), waited) ∧
    (plan.submit (page.entries.map Entry.native)).outcome waited = (.ok reply, after)

/-- The ways in which a turn goes on: the page is finished, or comes back with what is left. -/
inductive Advances (plan : Plan ω) (page : Page) (later : List Page) (gathered : List Value)
    (world : ω) : Progress → ω → Prop
  | finished (reply : Reply) (after : ω) (submits : plan.Submits page world reply after)
      (complete : reply.unprocessed.isGiven = false) :
      Advances plan page later gathered world ⟨later, gathered ++ reply.gathered⟩ after
  | retried (reply : Reply) (after : ω) (submits : plan.Submits page world reply after)
      (given : reply.unprocessed.isGiven = true) (left : List Entry)
      (matched : remainder plan.restore page.entries reply.unprocessed = .ok left)
      (allowed : page.attempt < plan.retries) :
      Advances plan page later gathered world
        ⟨⟨left, page.attempt + 1⟩ :: later, gathered ++ reply.gathered⟩ after

/-- The ways in which a turn ends a batch. -/
inductive Ends (plan : Plan ω) (page : Page) (later : List Page) (gathered : List Value)
    (world : ω) : Fault → ω → Prop
  | poll (fault : Fault) (after : ω)
      (failed : plan.isCancelled.outcome world = (.error fault, after)) :
      Ends plan page later gathered world fault after
  | cancelled (items : List Value) (after : ω)
      (asked : plan.isCancelled.outcome world = (.ok true, after))
      (reported : plan.report gathered = .ok items) :
      Ends plan page later gathered world
        (.cancelledBatch plan.operation (sources (page :: later)) items) after
  | wait (fault : Fault) (polled after : ω)
      (failed : (plan.wait page.attempt).outcome polled = (.error fault, after)) :
      Ends plan page later gathered world fault after
  | submit (fault : Fault) (waited after : ω)
      (failed : (plan.submit (page.entries.map Entry.native)).outcome waited =
        (.error fault, after)) :
      Ends plan page later gathered world fault after
  | matching (fault : Fault) (reply : Reply) (after : ω)
      (failed : remainder plan.restore page.entries reply.unprocessed = .error fault) :
      Ends plan page later gathered world fault after
  | report (fault : Fault) (collected : List Value) (after : ω)
      (failed : plan.report collected = .error fault) :
      Ends plan page later gathered world fault after
  | exhausted (reply : Reply) (after : ω) (submits : plan.Submits page world reply after)
      (given : reply.unprocessed.isGiven = true) (left : List Entry)
      (matched : remainder plan.restore page.entries reply.unprocessed = .ok left)
      (last : plan.retries ≤ page.attempt) (items : List Value)
      (reported : plan.report (gathered ++ reply.gathered) = .ok items) :
      Ends plan page later gathered world
        (.partialBatch plan.operation (left.map Entry.source) items) after

theorem advances_of_turn (plan : Plan ω) (page : Page) (later : List Page) (gathered : List Value)
    (world after : ω) (next : Progress)
    (done : (plan.turn page later gathered).outcome world = (.ok next, after)) :
    plan.Advances page later gathered world next after := by
  rw [turn, Run.outcome_bind_eq_ok_iff] at done
  obtain ⟨cancelled, polled, asked, done⟩ := done
  cases cancelled with
  | true =>
      simp only [↓reduceIte, Run.outcome_bind_eq_ok_iff, Run.outcome_throw, Prod.mk.injEq,
        reduceCtorEq, false_and, and_false, exists_false] at done
  | false =>
      simp only [Bool.false_eq_true, ↓reduceIte, Run.outcome_bind_eq_ok_iff] at done
      obtain ⟨_, waited, paused, reply, _, answered, done⟩ := done
      cases given : reply.unprocessed.isGiven with
      | false =>
          simp only [given, Bool.false_eq_true, ↓reduceIte, Run.outcome_pure, Prod.mk.injEq,
            Except.ok.injEq] at done
          obtain ⟨rfl, rfl⟩ := done
          exact .finished reply _ ⟨polled, waited, asked, paused, answered⟩ given
      | true =>
          simp only [given, ↓reduceIte, Run.outcome_bind_eq_ok_iff, Run.outcome_lift,
            Prod.mk.injEq] at done
          obtain ⟨left, _, ⟨matched, rfl⟩, done⟩ := done
          by_cases allowed : page.attempt < plan.retries
          · simp only [allowed, ↓reduceIte, Run.outcome_pure, Prod.mk.injEq,
              Except.ok.injEq] at done
            obtain ⟨rfl, rfl⟩ := done
            exact .retried reply _ ⟨polled, waited, asked, paused, answered⟩ given left matched
              allowed
          · simp only [allowed, ↓reduceIte, Run.outcome_bind_eq_ok_iff, Run.outcome_throw,
              Prod.mk.injEq, reduceCtorEq, false_and, and_false, exists_false] at done

theorem ends_of_turn (plan : Plan ω) (page : Page) (later : List Page) (gathered : List Value)
    (world after : ω) (fault : Fault)
    (failed : (plan.turn page later gathered).outcome world = (.error fault, after)) :
    plan.Ends page later gathered world fault after := by
  rw [turn, Run.outcome_bind_eq_error_iff] at failed
  rcases failed with failed | ⟨cancelled, polled, asked, failed⟩
  · exact .poll fault after failed
  cases cancelled with
  | true =>
      simp only [↓reduceIte, Run.outcome_bind_eq_error_iff, Run.outcome_lift, Prod.mk.injEq,
        Run.outcome_throw, Except.error.injEq] at failed
      rcases failed with ⟨unreported, rfl⟩ | ⟨items, _, ⟨reported, rfl⟩, rfl, rfl⟩
      · exact .report fault gathered _ unreported
      · exact .cancelled items _ asked reported
  | false =>
      simp only [Bool.false_eq_true, ↓reduceIte, Run.outcome_bind_eq_error_iff] at failed
      rcases failed with failed | ⟨_, waited, paused, failed | ⟨reply, _, answered, failed⟩⟩
      · exact .wait fault polled after failed
      · exact .submit fault waited after failed
      cases given : reply.unprocessed.isGiven with
      | false => simp [given] at failed
      | true =>
          simp only [given, ↓reduceIte, Run.outcome_bind_eq_error_iff, Run.outcome_lift,
            Prod.mk.injEq] at failed
          rcases failed with ⟨unmatched, rfl⟩ | ⟨left, _, ⟨matched, rfl⟩, failed⟩
          · exact .matching fault reply _ unmatched
          by_cases allowed : page.attempt < plan.retries
          · simp [allowed] at failed
          · simp only [allowed, ↓reduceIte, Run.outcome_bind_eq_error_iff, Run.outcome_lift,
              Prod.mk.injEq, Run.outcome_throw, Except.error.injEq] at failed
            rcases failed with ⟨unreported, rfl⟩ | ⟨items, _, ⟨reported, rfl⟩, rfl, rfl⟩
            · exact .report fault _ _ unreported
            · exact .exhausted reply _ ⟨polled, waited, asked, paused, answered⟩ given left matched
                (Nat.le_of_not_lt allowed) items reported

theorem Advances.workload_lt {plan : Plan ω} {page : Page} {later : List Page}
    {gathered : List Value} {world after : ω} {next : Progress}
    (advances : plan.Advances page later gathered world next after) :
    workload plan.retries next.queue < workload plan.retries (page :: later) := by
  cases advances with
  | finished => exact workload_finish _ _ _
  | retried _ _ _ _ _ _ allowed => exact workload_retry _ _ _ _ allowed

/-- What holds of the empty queue, and of a queue if it holds of all that a turn may leave of it,
holds of every queue: turns leave less work. -/
theorem turn_induct (plan : Plan ω) {motive : List Page → List Value → Prop}
    (empty : ∀ gathered, motive [] gathered)
    (turns : ∀ page later gathered,
      (∀ world next after, (plan.turn page later gathered).outcome world = (.ok next, after) →
        motive next.queue next.gathered) → motive (page :: later) gathered)
    (queue : List Page) (gathered : List Value) : motive queue gathered := by
  induction size : workload plan.retries queue using Nat.strongRecOn
    generalizing queue gathered with
  | _ size ih =>
      subst size
      cases queue with
      | nil => exact empty gathered
      | cons page later =>
          apply turns
          intro world next after turned
          have less := (plan.advances_of_turn _ _ _ _ _ _ turned).workload_lt
          exact ih _ less next.queue next.gathered rfl

/-- One turn leads from what is left to do, in a world, to what is left after it. -/
def Step (plan : Plan ω) (before after : Progress × ω) : Prop :=
  ∃ page later, before.1.queue = page :: later ∧
    (plan.turn page later before.1.gathered).outcome before.2 = (.ok after.1, after.2)

/-- Some turns lead from one point between pages to another. -/
def Reaches (plan : Plan ω) : Progress × ω → Progress × ω → Prop :=
  Relation.ReflTransGen plan.Step

/-- A batch that completes has emptied its queue turn by turn. -/
theorem reaches_of_drain_ok (plan : Plan ω) (queue : List Page) (gathered result : List Value)
    (world after : ω) (done : (plan.drain queue gathered).outcome world = (.ok result, after)) :
    plan.Reaches (⟨queue, gathered⟩, world) (⟨[], result⟩, after) := by
  induction queue, gathered using plan.turn_induct generalizing world with
  | empty gathered =>
      rw [drain_nil] at done
      cases done
      exact .refl
  | turns page later gathered ih =>
      rw [drain_cons, Run.outcome_bind_eq_ok_iff] at done
      obtain ⟨next, middle, turned, done⟩ := done
      exact .head ⟨page, later, rfl, turned⟩ (ih world next middle turned middle done)

/-- A batch that fails has taken some turns and failed in the next. -/
theorem reaches_of_drain_error (plan : Plan ω) (queue : List Page) (gathered : List Value)
    (world after : ω) (fault : Fault)
    (failed : (plan.drain queue gathered).outcome world = (.error fault, after)) :
    ∃ page later collected middle,
      plan.Reaches (⟨queue, gathered⟩, world) (⟨page :: later, collected⟩, middle) ∧
        plan.Ends page later collected middle fault after := by
  induction queue, gathered using plan.turn_induct generalizing world with
  | empty gathered =>
      rw [drain_nil] at failed
      cases failed
  | turns page later gathered ih =>
      rw [drain_cons, Run.outcome_bind_eq_error_iff] at failed
      rcases failed with failed | ⟨next, middle, turned, failed⟩
      · exact ⟨page, later, gathered, world, .refl, plan.ends_of_turn _ _ _ _ _ _ failed⟩
      · obtain ⟨page', later', collected, world', reached, ending⟩ :=
          ih world next middle turned middle failed
        exact ⟨page', later', collected, world', .head ⟨page, later, rfl, turned⟩ reached, ending⟩

end Plan

end TokenTable.Batch
