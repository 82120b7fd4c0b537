import TokenTable.Proofs.Batch.Alike
import TokenTable.Proofs.Journal

/-! # Batches beside a journal

A plan whose questions, pauses and submissions are noted carries out a batch as it does without the
notes (`keeps_carryOut`). It does not matter where the notes are taken: at the plan's own steps, or
at the store and the hooks that they call.
-/

namespace TokenTable.Batch

variable {ω κ : Type}

/-- The first plan does what the second does and only adds to the journal. -/
structure Plan.Mirrors (full : Plan (Journaled ω κ)) (bare : Plan ω) : Prop where
  operation : full.operation = bare.operation
  restore : full.restore = bare.restore
  report : full.report = bare.report
  retries : full.retries = bare.retries
  isCancelled : Run.Keeps full.isCancelled bare.isCancelled
  wait : ∀ attempt, Run.Keeps (full.wait attempt) (bare.wait attempt)
  submit : ∀ page, Run.Keeps (full.submit page) (bare.submit page)

namespace Plan

theorem keeps_isCancelled {full : Plan (Journaled ω κ)} {bare : Plan ω}
    (note : Except Fault Bool → Event κ)
    (noted : full.cancelled = bare.cancelled.map (Run.noting note)) :
    Run.Keeps full.isCancelled bare.isCancelled := by
  unfold isCancelled
  rw [noted]
  cases bare.cancelled with
  | none => exact .pure false
  | some poll => exact .noting _ poll

theorem keeps_wait {full : Plan (Journaled ω κ)} {bare : Plan ω}
    (noted : full.pause = bare.pause.map journaledPause) (attempt : Nat) :
    Run.Keeps (full.wait attempt) (bare.wait attempt) := by
  unfold wait
  rw [noted]
  cases bare.pause with
  | none => exact .pure ()
  | some pause =>
      simp only [Option.map_some]
      by_cases first : attempt = 0
      · simp only [first, ↓reduceIte]
        exact .pure ()
      · simp only [first, ↓reduceIte]
        exact (Run.Keeps.lift _).bind fun seconds => .noting _ _

theorem silent_isCancelled {full : Plan (Journaled ω κ)} {cancelled : Option (Run ω Bool)}
    (noted : full.cancelled = cancelled.map (Run.noting fun _ => .polled)) :
    Run.Silent full.isCancelled := by
  unfold isCancelled
  rw [noted]
  cases cancelled with
  | none => exact .pure false
  | some poll => exact .noting (fun _ => rfl) poll

theorem silent_wait {full : Plan (Journaled ω κ)} {pause : Option (Value → Run ω Unit)}
    (noted : full.pause = pause.map journaledPause) (attempt : Nat) :
    Run.Silent (full.wait attempt) := by
  unfold wait
  rw [noted]
  cases pause with
  | none => exact .pure ()
  | some pause =>
      simp only [Option.map_some]
      by_cases first : attempt = 0
      · simp only [first, ↓reduceIte]
        exact .pure ()
      · simp only [first, ↓reduceIte]
        exact .lift_bind fun seconds => .noting (fun _ => rfl) _

/-- A plan with notes at its own steps does what it does without them. -/
theorem mirrors_journaled (plan : Plan ω) : plan.journaled.Mirrors plan where
  operation := rfl
  restore := rfl
  report := rfl
  retries := rfl
  isCancelled := keeps_isCancelled (fun _ => .polled) rfl
  wait := keeps_wait rfl
  submit page := .noting (fun _ => .called page) (plan.submit page)

namespace Mirrors

variable {full : Plan (Journaled ω κ)} {bare : Plan ω}

/-- The plans do the same wherever the journal tells of some events first. -/
theorem alike (mirrors : full.Mirrors bare) (journal : List (Event κ)) :
    full.Alike (Run.Beside journal) bare where
  operation := mirrors.operation
  restore := mirrors.restore
  report := mirrors.report
  retries := mirrors.retries
  isCancelled := mirrors.isCancelled.alike journal
  wait attempt := (mirrors.wait attempt).alike journal
  submit page := (mirrors.submit page).alike journal

/-- A batch is carried out the same beside a journal. -/
theorem keeps_carryOut (mirrors : full.Mirrors bare) (pageSize : Nat) (entries : List Entry) :
    Run.Keeps (full.carryOut pageSize entries) (bare.carryOut pageSize entries) :=
  .of_alike fun journal => (mirrors.alike journal).carryOut pageSize entries

end Mirrors

end Plan

end TokenTable.Batch
