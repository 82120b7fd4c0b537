import TokenTable.Proofs.Batch.Endings
import TokenTable.Session.Token

/-! # Batches in lockstep

A batch that is cancelled by a token has the same hooks and the same store as one that is not, but
for the token, which only its own question changes. So a turn of the one that is not cancelled does
what the turn of the other does (`tells_work`): it pauses, calls the store once, and what it leaves
to do depends on the answer only (`Plan.settle`).
-/

namespace TokenTable

variable {ω κ α β : Type}

/-- A world with a token beside it. -/
abbrev Tokened (ω : Type) := ω × CancelToken

namespace Run

/-- Whatever is noted before, an operation has a result, leaves a world and notes some events. -/
def Tells (action : Run (Journaled ω κ) α) (world : ω) (result : Except Fault α) (after : ω)
    (told : List (Event κ)) : Prop :=
  ∀ journal, action.outcome (world, journal) = (result, (after, journal ++ told))

theorem Tells.lift (result : Except Fault α) (world : ω) :
    Tells (liftM result : Run (Journaled ω κ) α) world result world [] := by
  intro journal
  rw [outcome_lift, List.append_nil]

theorem Tells.noting (note : Except Fault α → Event κ) (action : Run ω α) (world : ω) :
    Tells (action.noting note) world (action.outcome world).1 (action.outcome world).2
      [note (action.outcome world).1] := fun journal => outcome_noting note action (world, journal)

theorem Tells.bind {action : Run (Journaled ω κ) α} {next : α → Run (Journaled ω κ) β}
    {world middle after : ω} {a : α} {result : Except Fault β} {early late : List (Event κ)}
    (first : action.Tells world (.ok a) middle early)
    (second : (next a).Tells middle result after late) :
    (action >>= next).Tells world result after (early ++ late) := by
  intro journal
  rw [outcome_bind, first journal]
  exact (second _).trans (by rw [List.append_assoc])

theorem Tells.bind_error {action : Run (Journaled ω κ) α} {world after : ω} {fault : Fault}
    {told : List (Event κ)} (failed : action.Tells world (.error fault) after told)
    (next : α → Run (Journaled ω κ) β) :
    (action >>= next).Tells world (.error fault) after told := by
  intro journal
  rw [outcome_bind, failed journal]

/-- What follows without a look at the world changes the result only. -/
theorem Tells.bind_lift {action : Run (Journaled ω κ) α} {world after : ω}
    {result : Except Fault α} {told : List (Event κ)}
    (tells : action.Tells world result after told) (next : α → Except Fault β) :
    (action >>= fun a => liftM (next a)).Tells world (result >>= next) after told := by
  cases result with
  | error fault => exact tells.bind_error _
  | ok a =>
      have both : (action >>= fun a => liftM (next a)).Tells world (next a) after (told ++ []) :=
        tells.bind (Tells.lift (next a) after)
      rwa [List.append_nil] at both

/-- An operation in a world with a token, which it does not know of. -/
def withToken (action : Run ω α) : Run (Tokened ω) α :=
  .ofOutcome fun world =>
    let (result, after) := action.outcome world.1
    (result, (after, world.2))

/-- Asks the token. -/
def askToken : Run (Tokened ω) Bool :=
  .ofOutcome fun world =>
    match world.2.poll with
    | .ok (answer, token) => (.ok answer, (world.1, token))
    | .error fault => (.error fault, world)

end Run

/-- A store in a world with a token, which it does not know of. -/
def Store.withToken (store : Store ω) : Store (Tokened ω) :=
  store.within Prod.fst fun after world => (after, world.2)

namespace Batch

open Run

/-- A control whose batch is cancelled by the token of its world. -/
def Control.withToken (control : Control ω) : Control (Tokened ω) where
  maxRetries := control.maxRetries
  pause := control.pause.map fun pause seconds => (pause seconds).withToken
  cancelled := some askToken

namespace Plan

/-- What a reply to a page leaves to do. -/
def settle (plan : Plan ω) (page : Page) (later : List Page) (gathered : List Value)
    (reply : Reply) : Except Fault Progress := do
  let gathered := gathered ++ reply.gathered
  if reply.unprocessed.isGiven then
    let left ← remainder plan.restore page.entries reply.unprocessed
    if page.attempt < plan.retries then
      return { queue := ⟨left, page.attempt + 1⟩ :: later, gathered }
    else
      let items ← plan.report gathered
      throw (.partialBatch plan.operation (left.map Entry.source) items)
  else return { queue := later, gathered }

theorem gathered_of_settle {plan : Plan ω} {page : Page} {later : List Page}
    {gathered : List Value} {reply : Reply} {next : Progress}
    (settled : plan.settle page later gathered reply = .ok next) :
    next.gathered = gathered ++ reply.gathered := by
  rw [settle] at settled
  split at settled
  · obtain ⟨left, _, settled⟩ := (bind_eq_ok_iff _ _ _).mp settled
    split at settled
    · cases settled
      rfl
    · obtain ⟨_, _, settled⟩ := (bind_eq_ok_iff _ _ _).mp settled
      cases settled
  · cases settled
    rfl

/-- A page that comes back was tried once more. -/
theorem attempts_of_settle {plan : Plan ω} {page : Page} {later : List Page}
    {gathered : List Value} {reply : Reply} {next : Progress} {made : Nat}
    (attempts : ∀ other ∈ page :: later, other.attempt ≤ made)
    (settled : plan.settle page later gathered reply = .ok next) :
    ∀ other ∈ next.queue, other.attempt ≤ made + 1 := by
  rw [List.forall_mem_cons] at attempts
  have others : ∀ other ∈ later, other.attempt ≤ made + 1 := fun other member =>
    (attempts.2 other member).trans (Nat.le_succ made)
  rw [settle] at settled
  split at settled
  · obtain ⟨left, _, settled⟩ := (bind_eq_ok_iff _ _ _).mp settled
    split at settled
    · cases settled
      exact List.forall_mem_cons.mpr ⟨Nat.succ_le_succ attempts.1, others⟩
    · obtain ⟨_, _, settled⟩ := (bind_eq_ok_iff _ _ _).mp settled
      cases settled
  · cases settled
    exact others

/-- A turn of a batch that is not cancelled. -/
def work (plan : Plan ω) (page : Page) (later : List Page) (gathered : List Value) :
    Run ω Progress :=
  plan.wait page.attempt >>= fun _ =>
    plan.submit (page.entries.map Entry.native) >>= fun reply =>
      liftM (plan.settle page later gathered reply)

/-- How a batch that is cancelled ends. -/
def stop (plan : Plan ω) (queue : List Page) (gathered : List Value) : Except Fault Progress := do
  let items ← plan.report gathered
  throw (.cancelledBatch plan.operation (sources queue) items)

/-- A turn asks whether the batch is cancelled before it works. -/
theorem turn_eq (plan : Plan ω) (page : Page) (later : List Page) (gathered : List Value) :
    plan.turn page later gathered =
      (plan.isCancelled >>= fun cancelled =>
        if cancelled then liftM (plan.stop (page :: later) gathered)
        else plan.work page later gathered) := by
  rw [turn]
  congr 1
  funext cancelled
  cases cancelled with
  | true =>
      apply Run.ext
      intro world
      simp only [stop, ↓reduceIte, outcome_bind, outcome_lift, outcome_throw]
      cases plan.report gathered <;> rfl
  | false =>
      simp only [work, Bool.false_eq_true, ↓reduceIte]
      congr 1
      funext _
      congr 1
      funext reply
      apply Run.ext
      intro world
      rw [settle]
      cases given : reply.unprocessed.isGiven with
      | false => rfl
      | true =>
          simp only [↓reduceIte, outcome_bind, outcome_lift]
          cases remainder plan.restore page.entries reply.unprocessed with
          | error fault => rfl
          | ok left =>
              by_cases allowed : page.attempt < plan.retries
              · simp only [allowed, ↓reduceIte]
                rfl
              · simp only [allowed, ↓reduceIte, outcome_bind, outcome_lift, outcome_throw]
                cases plan.report (gathered ++ reply.gathered) <;> rfl

end Plan

/-- A wait is told unless it doubled more than a thousand times. -/
theorem outOfRange_of_backoff {attempt : Nat} {fault : Fault} (retried : attempt ≠ 0)
    (failed : backoff attempt = .error fault) : fault = .outOfRange ∧ 1024 < attempt := by
  have many : 1024 < attempt := by
    by_contra small
    obtain ⟨seconds, computed⟩ := exists_backoff retried (Nat.le_of_not_lt small)
    rw [computed] at failed
    cases failed
  rw [backoff_of_many (by omega)] at failed
  cases failed
  exact ⟨rfl, many⟩

/-- The ways in which a wait fails: it is too long to be told, or its pause fails. -/
inductive Stuck (control : Control ω) (attempt : Nat) (fault : Fault) : List Value → Prop
  | long (paused : control.pause ≠ none) (many : 1024 < attempt) (same : fault = .outOfRange) :
      Stuck control attempt fault []
  | broken (paused : control.pause ≠ none) (seconds : Value) : Stuck control attempt fault [seconds]

namespace Operation

variable (operation : Operation) (store : Store ω) (table : String) (items : Value)
  (control : Control ω) (retries : Nat)

/-- The plan of an operation whose calls are noted. -/
abbrev notedPlan : Plan (Journaled ω Exchange) :=
  operation.plan store.journaled table items retries control.journaled

/-- The same in a world with a token that cancels it. -/
abbrev tokenPlan : Plan (Journaled (Tokened ω) Exchange) :=
  operation.plan store.withToken.journaled table items retries control.withToken.journaled

/-- Waits are noted, and the same with a token. -/
theorem tells_wait (attempt : Nat) (world : ω) :
    ∃ waited after seconds,
      ((operation.notedPlan store table items control retries).wait attempt).Tells world waited
          after (seconds.map .paused) ∧
        (∀ token,
          ((operation.tokenPlan store table items control retries).wait attempt).Tells
            (world, token) waited (after, token) (seconds.map .paused)) ∧
        ∀ fault, waited = .error fault → Stuck control attempt fault seconds := by
  unfold Plan.wait
  rw [pause_plan, pause_plan]
  unfold Control.journaled Control.withToken
  have passes : ∃ waited after seconds,
      (pure () : Run (Journaled ω Exchange) Unit).Tells world waited after
          (seconds.map .paused) ∧
        (∀ token : CancelToken,
          (pure () : Run (Journaled (Tokened ω) Exchange) Unit).Tells (world, token) waited
            (after, token) (seconds.map .paused)) ∧
        ∀ fault, waited = .error fault → Stuck control attempt fault seconds :=
    ⟨.ok (), world, [], Tells.lift _ world, fun token => Tells.lift _ (world, token), nofun⟩
  cases hook : control.pause with
  | none => exact passes
  | some pause =>
      have paused : control.pause ≠ none := by
        rw [hook]
        exact nofun
      simp only [Option.map_some]
      by_cases first : attempt = 0
      · simp only [first, ↓reduceIte]
        rw [first] at passes
        exact passes
      · simp only [first, ↓reduceIte]
        cases computed : backoff attempt with
        | error fault =>
            refine ⟨.error fault, world, [], (Tells.lift _ world).bind_error _,
              fun token => (Tells.lift _ (world, token)).bind_error _, ?_⟩
            rintro _ ⟨⟩
            obtain ⟨same, many⟩ := outOfRange_of_backoff first computed
            exact .long paused many same
        | ok seconds =>
            exact ⟨_, _, [.float seconds], (Tells.lift _ world).bind (Tells.noting _ _ world),
              fun token => (Tells.lift _ (world, token)).bind (Tells.noting _ _ _),
              fun fault _ => .broken paused _⟩

/-- A page is submitted with one call, whose answer is what the store says. -/
theorem tells_submit_request {σ : Type} (other : Store σ) (hooks : Control σ)
    (serves : other.serves operation.method = true) {page : List Value} {request : Request}
    (requested : operation.request table page = .ok request) {answer : Except Fault Value}
    {world after : σ}
    (answered : (other.answer operation.method request).outcome world = (answer, after)) :
    ((operation.notedPlan other table items hooks retries).submit page).Tells world
      (answer >>= operation.reply table) after [.called ⟨operation.method, request, answer⟩] := by
  rw [submit_plan, Run.lift_bind_of_ok requested]
  exact Tells.bind_lift (Store.outcome_send_noted serves answered) _

/-- A page is submitted with one call, and the same with a token. -/
theorem tells_submit (serves : store.serves operation.method = true) (page : List Value)
    (world : ω) :
    ∃ exchange after,
      ((operation.notedPlan store table items control retries).submit page).Tells world
          (exchange.answer >>= operation.reply table) after [.called exchange] ∧
        ∀ token,
          ((operation.tokenPlan store table items control retries).submit page).Tells (world, token)
            (exchange.answer >>= operation.reply table) (after, token) [.called exchange] := by
  obtain ⟨request, requested⟩ := operation.exists_request table page
  rcases answered : (store.answer operation.method request).outcome world with ⟨answer, after⟩
  refine ⟨⟨operation.method, request, answer⟩, after,
    operation.tells_submit_request table items retries store control serves requested answered,
    fun token => ?_⟩
  have beside : (store.withToken.answer operation.method request).outcome (world, token) =
      (answer, (after, token)) := by
    rw [← congrArg (fun outcome => (outcome.1, (outcome.2, token))) answered]
    rfl
  exact operation.tells_submit_request table items retries store.withToken control.withToken serves
    requested beside

/-- What a turn does that is not cancelled: it pauses, and it calls the store unless that fails. -/
inductive Worked (settle : Reply → Except Fault Progress) (attempt : Nat)
    (result : Except Fault Progress) (told : List (Event Exchange)) : Prop
  | stuck (seconds : List Value) (fault : Fault) (fails : Stuck control attempt fault seconds)
      (failed : result = .error fault) (silent : told = seconds.map .paused)
  | called (seconds : List Value) (exchange : Exchange)
      (answered : result = (exchange.answer >>= operation.reply table >>= settle))
      (single : told = seconds.map .paused ++ [.called exchange])

/-- What a reply leaves to do depends neither on the store nor on the hooks. -/
theorem settle_plan_eq {σ : Type} (other : Store σ) (hooks : Control σ) :
    (operation.plan other table items retries hooks).settle =
      (operation.plan store table items retries control).settle := by
  funext page later gathered reply
  unfold Plan.settle
  rw [operation_plan, operation_plan, restore_plan, restore_plan, report_plan, report_plan,
    retries_plan, retries_plan]

/-- A turn that is not cancelled does the same with a token. -/
theorem tells_work (serves : store.serves operation.method = true) (page : Page)
    (later : List Page) (gathered : List Value) (world : ω) :
    ∃ result after told,
      operation.Worked table control
          ((operation.plan store table items retries control).settle page later gathered)
          page.attempt result told ∧
        ((operation.notedPlan store table items control retries).work page later gathered).Tells
          world result after told ∧
        ∀ token,
          ((operation.tokenPlan store table items control retries).work page later gathered).Tells
            (world, token) result (after, token) told := by
  obtain ⟨waited, middle, seconds, noted, beside, fails⟩ :=
    tells_wait operation store table items control retries page.attempt world
  cases waited with
  | error fault =>
      exact ⟨.error fault, middle, _, .stuck seconds fault (fails fault rfl) rfl rfl,
        noted.bind_error _, fun token => (beside token).bind_error _⟩
  | ok _ =>
      obtain ⟨exchange, after, sent, sentBeside⟩ :=
        tells_submit operation store table items control retries serves
          (page.entries.map Entry.native) middle
      refine ⟨_, after, _, .called seconds exchange rfl rfl, ?_, fun token => ?_⟩
      · have settles := sent.bind_lift
          ((operation.plan store table items retries control).settle page later gathered)
        rw [Plan.work, settle_plan_eq operation store table items control retries]
        exact noted.bind settles
      · have settles := (sentBeside token).bind_lift
          ((operation.plan store table items retries control).settle page later gathered)
        rw [Plan.work, settle_plan_eq operation store table items control retries]
        exact (beside token).bind settles

theorem tells_isCancelled_zero (world : ω) :
    ((operation.tokenPlan store table items control retries).isCancelled).Tells
      (world, .countdown (.int 0)) (.ok true) (world, .countdown (.int 0)) [.polled] := by
  rw [Plan.isCancelled, cancelled_plan]
  exact Tells.noting _ _ _

theorem tells_isCancelled_succ (world : ω) (budget : Nat) :
    ((operation.tokenPlan store table items control retries).isCancelled).Tells
      (world, .countdown (.int (budget + 1))) (.ok false) (world, .countdown (.int budget))
        [.polled] := by
  have asked : askToken.outcome (world, .countdown (.int (budget + 1))) =
      (.ok false, (world, .countdown (.int budget))) := by
    rw [askToken, outcome_ofOutcome, CancelToken.poll_countdown]
  have noted : (askToken.noting fun _ => Event.polled (κ := Exchange)).Tells
      (world, .countdown (.int (budget + 1))) _ _ _ := Tells.noting _ askToken _
  rw [asked] at noted
  rw [Plan.isCancelled, cancelled_plan]
  exact noted

/-- Without a hook for it, a batch is never cancelled. -/
theorem turn_notedPlan (free : control.cancelled = none) (page : Page) (later : List Page)
    (gathered : List Value) :
    (operation.notedPlan store table items control retries).turn page later gathered =
      (operation.notedPlan store table items control retries).work page later gathered := by
  rw [Plan.turn_eq, Plan.isCancelled, cancelled_plan, Control.journaled, free]
  rfl

end Operation

end Batch

end TokenTable
