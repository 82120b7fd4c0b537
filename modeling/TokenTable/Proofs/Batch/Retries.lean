import TokenTable.Proofs.Batch.Lockstep
import TokenTable.Proofs.Batch.Wire

/-! # Fewer retries

A batch that may retry less often does what it does with more retries, up to the page that it gives
up where it would have gone on. So its turns do the same or fail (`shortens_turn`), and what a turn
that fails had told before is what the other tells first. Main statement: `shortens_perform`.
-/

namespace TokenTable

variable {ω α β : Type}

namespace Run

/-- The first operation does what the second does, or it fails and has done what the second does
first. -/
def Shortens (short long : Run (Journaled ω Exchange) α) : Prop :=
  ∀ world, short.outcome world = long.outcome world ∨
    ∃ fault after, short.outcome world = (.error fault, after) ∧
      after.2 <+: (long.outcome world).2.2

namespace Shortens

variable {short long : Run (Journaled ω Exchange) α}
  {shortNext longNext : α → Run (Journaled ω Exchange) β}

theorem refl (action : Run (Journaled ω Exchange) α) : Shortens action action :=
  fun _ => Or.inl rfl

/-- A result that is given with no look at the world may fail where the other does not. -/
theorem lift {first second : Except Fault α}
    (fails : first = second ∨ ∃ fault, first = .error fault) :
    Shortens (liftM first : Run (Journaled ω Exchange) α) (liftM second) := by
  intro world
  rcases fails with rfl | ⟨fault, rfl⟩
  · exact Or.inl rfl
  · exact Or.inr ⟨fault, world, rfl, List.prefix_refl _⟩

/-- What follows an operation that adds to the journal only has to be shortened where the operation
succeeds. -/
theorem bind_of_ok (first : Shortens short long)
    (grows : ∀ a, SendsOnly (fun _ _ => True) (longNext a))
    (second : ∀ world a after, short.outcome world = (.ok a, after) →
      Shortens (shortNext a) (longNext a)) :
    Shortens (short >>= shortNext) (long >>= longNext) := by
  intro world
  rw [outcome_bind, outcome_bind]
  rcases first world with same | ⟨fault, after, failed, told⟩
  · rw [← same]
    rcases result : short.outcome world with ⟨fault | a, middle⟩
    · exact Or.inl rfl
    · exact second world a middle result middle
  · refine Or.inr ⟨fault, after, ?_, ?_⟩
    · rw [failed]
    · rcases result : long.outcome world with ⟨fault | a, middle⟩
      · rwa [result] at told
      · obtain ⟨added, journal, _⟩ := grows a middle
        rw [result] at told
        simp only [journal]
        exact told.trans (List.prefix_append _ _)

/-- After the same operation, what follows has to be shortened only. -/
theorem bind (action : Run (Journaled ω Exchange) α)
    (second : ∀ a, Shortens (shortNext a) (longNext a)) :
    Shortens (action >>= shortNext) (action >>= longNext) := by
  intro world
  rw [outcome_bind, outcome_bind]
  rcases action.outcome world with ⟨fault | a, middle⟩
  · exact Or.inl rfl
  · exact second a middle

/-- What was told before is told first. -/
theorem journal (shortens : Shortens short long) (world : Journaled ω Exchange) :
    (short.outcome world).2.2 <+: (long.outcome world).2.2 := by
  rcases shortens world with same | ⟨fault, after, failed, told⟩
  · exact same ▸ List.prefix_refl _
  · rwa [failed]

/-- An operation that does not fail is not shortened. -/
theorem same_of_ok (shortens : Shortens short long) {world after : Journaled ω Exchange} {a : α}
    (done : short.outcome world = (.ok a, after)) : long.outcome world = (.ok a, after) := by
  rcases shortens world with same | ⟨fault, other, failed, _⟩
  · rw [← same, done]
  · rw [failed] at done
    cases done

end Shortens

end Run

namespace Batch

open Run

namespace Plan

/-- A plan with another number of retries. -/
def withRetries (plan : Plan ω) (retries : Nat) : Plan ω := { plan with retries }

/-- With fewer retries, what a reply leaves to do is the same, unless the page is given up. -/
theorem settle_withRetries (plan : Plan ω) {more : Nat} (fewer : plan.retries ≤ more) (page : Page)
    (later : List Page) (gathered : List Value) (reply : Reply) :
    plan.settle page later gathered reply =
        (plan.withRetries more).settle page later gathered reply ∨
      ∃ fault, plan.settle page later gathered reply = .error fault := by
  unfold settle
  cases reply.unprocessed.isGiven with
  | false => exact Or.inl rfl
  | true =>
      simp only [↓reduceIte, withRetries]
      cases remainder plan.restore page.entries reply.unprocessed with
      | error fault => exact Or.inl rfl
      | ok left =>
          by_cases allowed : page.attempt < plan.retries
          · have later : page.attempt < more := Nat.lt_of_lt_of_le allowed fewer
            left
            simp only [allowed, later, ↓reduceIte]
          · simp only [allowed, ↓reduceIte]
            right
            cases plan.report (gathered ++ reply.gathered) with
            | error fault => exact ⟨fault, rfl⟩
            | ok items => exact ⟨_, rfl⟩

/-- With fewer retries, a turn does the same, or it gives its page up. -/
theorem shortens_turn (plan : Plan (Journaled ω Exchange)) {more : Nat}
    (fewer : plan.retries ≤ more) (page : Page) (later : List Page) (gathered : List Value) :
    Shortens (plan.turn page later gathered)
      ((plan.withRetries more).turn page later gathered) := by
  rw [turn_eq, turn_eq]
  apply Shortens.bind
  intro cancelled
  cases cancelled with
  | true => exact .refl _
  | false =>
      apply Shortens.bind
      intro _
      apply Shortens.bind
      intro reply
      exact .lift (settle_withRetries plan fewer page later gathered reply)

end Plan

namespace Operation

variable (operation : Operation) (store : Store ω) (table : String) (items : Value)

/-- The number of retries of a plan does not change its steps. -/
theorem withRetries_plan (retries more : Nat) (control : Control ω) :
    (operation.plan store table items retries control).withRetries more =
      operation.plan store table items more control := by
  cases operation <;> rfl

/-- With fewer retries, a queue is drained in the same way, or a page of it is given up. -/
theorem shortens_drain {retries more : Nat} (fewer : retries ≤ more) (control : Control ω)
    (queue : List Page) (gathered : List Value) :
    Shortens ((operation.notedPlan store table items control retries).drain queue gathered)
      ((operation.notedPlan store table items control more).drain queue gathered) := by
  induction queue, gathered using
    (operation.notedPlan store table items control retries).turn_induct with
  | empty gathered =>
      rw [Plan.drain_nil, Plan.drain_nil]
      exact .refl _
  | turns page later gathered ih =>
      have few : (operation.notedPlan store table items control retries).retries ≤ more := by
        rwa [retries_plan]
      have turns := Plan.shortens_turn _ few page later gathered
      rw [withRetries_plan] at turns
      rw [Plan.drain_cons, Plan.drain_cons]
      refine turns.bind_of_ok (fun next => ?_) ih
      exact sendsOnly_drain (motive := fun _ => True) (fun _ _ _ _ _ => trivial)
        (fun _ _ _ _ _ _ _ _ _ => trivial) next.queue next.gathered trivial

/-- **Fewer retries only cut a batch short.** -/
theorem shortens_perform {entries : List Entry}
    (translates : operation.entriesOf items = .ok entries) {retries more : Nat}
    (fewer : retries ≤ more) (pause : Option (Value → Run ω Unit))
    (cancelled : Option (Run ω Bool)) :
    Shortens
      (operation.perform store.journaled table items
        (Control.journaled ⟨.int retries, pause, cancelled⟩))
      (operation.perform store.journaled table items
        (Control.journaled ⟨.int more, pause, cancelled⟩)) := by
  rw [perform_eq _ _ _ _ _ entries translates, perform_eq _ _ _ _ _ entries translates]
  apply Shortens.bind
  intro _
  apply Shortens.bind
  intro answers
  have few : retriesOf answers
      (Control.journaled (κ := Exchange) ⟨.int retries, pause, cancelled⟩).maxRetries =
        .ok retries := retriesOf_nat answers retries
  have many : retriesOf answers
      (Control.journaled (κ := Exchange) ⟨.int more, pause, cancelled⟩).maxRetries = .ok more :=
    retriesOf_nat answers more
  rw [lift_bind_of_ok few, lift_bind_of_ok many]
  have hooks : operation.plan store.journaled table items more
      (Control.journaled ⟨.int more, pause, cancelled⟩) =
        operation.notedPlan store table items ⟨.int retries, pause, cancelled⟩ more := by
    cases operation <;> rfl
  rw [hooks]
  apply (operation.shortens_drain store table items fewer _ _ []).bind_of_ok
  · exact fun gathered => SendsOnly.lift _
  · exact fun _ gathered _ _ => .refl _

end Operation

end Batch

end TokenTable
