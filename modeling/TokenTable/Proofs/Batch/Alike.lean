import TokenTable.Batch.Write
import TokenTable.Proofs.Alike
import TokenTable.Proofs.Batch.Turn

/-! # Batches that do the same

A batch uses its world only through its store and its hooks. So a batch does the same on two stores
that do the same, if its pauses and its questions do (`read_alike`, `write_alike`,
`deleteNative_alike`). What one turn does to the queue carries this to a whole batch
(`Plan.Alike.turn`, `Plan.Alike.drain`).
-/

namespace TokenTable.Batch

variable {ω ω' : Type} {R : ω → ω' → Prop}

/-- Two ways to pause do the same, or there is none. -/
abbrev PausesAlike (R : ω → ω' → Prop) :
    Option (Value → Run ω Unit) → Option (Value → Run ω' Unit) → Prop :=
  Option.Rel fun pause pause' => ∀ seconds, Run.Alike R (pause seconds) (pause' seconds)

namespace Plan

/-- Two plans agree on all that does not touch a world, and do the same to their worlds. -/
structure Alike (R : ω → ω' → Prop) (first : Plan ω) (second : Plan ω') : Prop where
  operation : first.operation = second.operation
  restore : first.restore = second.restore
  report : first.report = second.report
  retries : first.retries = second.retries
  isCancelled : Run.Alike R first.isCancelled second.isCancelled
  wait : ∀ attempt, Run.Alike R (first.wait attempt) (second.wait attempt)
  submit : ∀ page, Run.Alike R (first.submit page) (second.submit page)

theorem isCancelled_alike {first : Plan ω} {second : Plan ω'}
    (polls : Option.Rel (Run.Alike R) first.cancelled second.cancelled) :
    Run.Alike R first.isCancelled second.isCancelled := by
  unfold isCancelled
  generalize first.cancelled = poll, second.cancelled = poll' at polls
  cases polls with
  | none => exact .pure false
  | some alike => exact alike

theorem wait_alike {first : Plan ω} {second : Plan ω'}
    (pauses : PausesAlike R first.pause second.pause) (attempt : Nat) :
    Run.Alike R (first.wait attempt) (second.wait attempt) := by
  unfold wait
  generalize first.pause = pause, second.pause = pause' at pauses
  cases pauses with
  | none => exact .pure ()
  | some alike =>
      by_cases first : attempt = 0
      · simp only [first, ↓reduceIte]
        exact .pure ()
      · simp only [first, ↓reduceIte]
        exact .lift_bind _ fun seconds => alike _

namespace Alike

variable {first : Plan ω} {second : Plan ω'}

/-- A turn is the same for both plans. -/
theorem turn (alike : first.Alike R second) (page : Page) (later : List Page)
    (gathered : List Value) :
    Run.Alike R (first.turn page later gathered) (second.turn page later gathered) := by
  unfold Plan.turn
  rw [alike.operation, alike.restore, alike.report, alike.retries]
  apply alike.isCancelled.bind
  intro cancelled
  cases cancelled with
  | true => exact .lift_bind _ fun items => .throw _
  | false =>
      apply (alike.wait page.attempt).bind
      intro _
      apply (alike.submit _).bind
      intro reply
      cases given : reply.unprocessed.isGiven with
      | false =>
          simp only [Bool.false_eq_true, ↓reduceIte]
          exact .pure _
      | true =>
          simp only [↓reduceIte]
          apply Run.Alike.lift_bind
          intro left
          by_cases allowed : page.attempt < second.retries
          · simp only [allowed, ↓reduceIte]
            exact .pure _
          · simp only [allowed, ↓reduceIte]
            exact .lift_bind _ fun items => .throw _

/-- Draining a queue is the same for both plans. -/
theorem drain (alike : first.Alike R second) (queue : List Page) (gathered : List Value) :
    Run.Alike R (first.drain queue gathered) (second.drain queue gathered) := by
  induction queue, gathered using second.turn_induct with
  | empty gathered =>
      rw [drain_nil, drain_nil]
      exact .pure gathered
  | turns page later gathered ih =>
      rw [drain_cons, drain_cons]
      exact (alike.turn page later gathered).bind_of_ok ih

theorem carryOut (alike : first.Alike R second) (pageSize : Nat) (entries : List Entry) :
    Run.Alike R (first.carryOut pageSize entries) (second.carryOut pageSize entries) :=
  alike.drain _ []

end Alike

end Plan

/-- Two controls allow the same number of retries, and their hooks do the same. -/
structure Control.Alike (R : ω → ω' → Prop) (first : Control ω) (second : Control ω') : Prop where
  maxRetries : first.maxRetries = second.maxRetries
  pause : PausesAlike R first.pause second.pause
  cancelled : Option.Rel (Run.Alike R) first.cancelled second.cancelled

section

variable {store : Store ω} {store' : Store ω'} {control : Control ω} {control' : Control ω'}

theorem readPlan_alike (stores : store.Alike R store') (controls : control.Alike R control')
    (table : Value) (consistent : Bool) (natives : List NativeItem) (order : Value)
    (retries : Nat) :
    (readPlan store table consistent natives order retries control).Alike R
      (readPlan store' table consistent natives order retries control') where
  operation := rfl
  restore := rfl
  report := rfl
  retries := rfl
  isCancelled := Plan.isCancelled_alike controls.cancelled
  wait := Plan.wait_alike controls.pause
  submit _ := .lift_bind _ fun request => (stores.send .readBatch request).bind fun _ => .lift _

theorem writePlan_alike (stores : store.Alike R store') (controls : control.Alike R control')
    (table : Value) (operation : String) (retries : Nat) :
    (writePlan store table operation retries control).Alike R
      (writePlan store' table operation retries control') where
  operation := rfl
  restore := rfl
  report := rfl
  retries := rfl
  isCancelled := Plan.isCancelled_alike controls.cancelled
  wait := Plan.wait_alike controls.pause
  submit _ := .lift_bind _ fun request => (stores.send .writeBatch request).bind fun _ => .lift _

/-- A batch of keys is read the same from both stores. -/
theorem read_alike (stores : store.Alike R store') (controls : control.Alike R control')
    (table keys : Value) (consistent : Bool) (order : Value) :
    Run.Alike R (read store table keys consistent order control)
      (read store' table keys consistent order control') := by
  unfold read
  rw [controls.maxRetries]
  split
  · exact .throw _
  apply Run.Alike.lift_bind
  intro _
  apply Run.Alike.lift_bind
  intro pairs
  apply stores.limit.bind
  intro answers
  apply Run.Alike.lift_bind
  intro retries
  apply ((readPlan_alike stores controls table consistent _ order retries).carryOut _ _).bind
  intro gathered
  exact .lift _

theorem writeEntries_alike (stores : store.Alike R store') (controls : control.Alike R control')
    (table : Value) (operation : String) (entries : List Entry) :
    Run.Alike R (writeEntries store table operation entries control)
      (writeEntries store' table operation entries control') := by
  unfold writeEntries
  rw [controls.maxRetries]
  apply stores.limit.bind
  intro answers
  apply Run.Alike.lift_bind
  intro retries
  apply ((writePlan_alike stores controls table operation retries).carryOut _ entries).bind
  intro _
  exact .pure ()

/-- A batch is written the same to both stores. -/
theorem write_alike (stores : store.Alike R store') (controls : control.Alike R control')
    (table items mode : Value) :
    Run.Alike R (write store table items mode control)
      (write store' table items mode control') := by
  unfold write
  apply Run.Alike.lift_bind
  intro mode
  split
  · exact .throw _
  apply Run.Alike.lift_bind
  intro entries
  exact writeEntries_alike stores controls table _ entries

/-- Deleting under native keys is the same on both stores. -/
theorem deleteNative_alike (stores : store.Alike R store')
    (controls : control.Alike R control') (table : Value) (keys : List Value) :
    Run.Alike R (deleteNative store table keys control)
      (deleteNative store' table keys control') := by
  unfold deleteNative
  apply Run.Alike.lift_bind
  intro entries
  split
  · apply (writeEntries_alike stores controls table _ entries).bind
    intro _
    exact .pure _
  · exact .pure _

end

end TokenTable.Batch
