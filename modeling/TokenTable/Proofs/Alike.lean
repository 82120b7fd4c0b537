import TokenTable.Store.Basic

/-! # Operations that do the same

Two operations may run over different worlds and yet do the same: where their worlds are related,
they end alike, and they leave related worlds (`Run.Alike`). Operations that are put together in the
same way from such operations are such operations again, so two stores whose calls do the same are
used alike (`Store.Alike.send`).
-/

namespace TokenTable

variable {ω ω' α β : Type} {R : ω → ω' → Prop}

namespace Run

/-- Two operations do the same on related worlds. -/
def Alike (R : ω → ω' → Prop) (first : Run ω α) (second : Run ω' α) : Prop :=
  ∀ world world', R world world' →
    (first.outcome world).1 = (second.outcome world').1 ∧
      R (first.outcome world).2 (second.outcome world').2

namespace Alike

theorem pure (a : α) : Alike R (Pure.pure a) (Pure.pure a) :=
  fun _ _ related => ⟨rfl, related⟩

theorem throw (fault : Fault) :
    Alike R (MonadExcept.throw fault : Run ω α) (MonadExcept.throw fault) :=
  fun _ _ related => ⟨rfl, related⟩

theorem lift (result : Except Fault α) : Alike R (liftM result) (liftM result) :=
  fun _ _ related => ⟨rfl, related⟩

/-- What follows has to be alike only for the results that the second operation can have. -/
theorem bind_of_ok {first : Run ω α} {second : Run ω' α} {next : α → Run ω β}
    {next' : α → Run ω' β} (start : Alike R first second)
    (follows : ∀ world a after, second.outcome world = (.ok a, after) →
      Alike R (next a) (next' a)) :
    Alike R (first >>= next) (second >>= next') := by
  intro world world' related
  obtain ⟨same, kept⟩ := start world world' related
  rcases begun : first.outcome world with ⟨answer, after⟩
  rcases begun' : second.outcome world' with ⟨answer', after'⟩
  rw [begun, begun'] at same kept
  cases same
  rw [outcome_bind, outcome_bind, begun, begun']
  cases answer with
  | error fault => exact ⟨rfl, kept⟩
  | ok a => exact follows world' a after' begun' after after' kept

theorem bind {first : Run ω α} {second : Run ω' α} {next : α → Run ω β} {next' : α → Run ω' β}
    (start : Alike R first second) (follows : ∀ a, Alike R (next a) (next' a)) :
    Alike R (first >>= next) (second >>= next') :=
  start.bind_of_ok fun _ a _ _ => follows a

theorem lift_bind (result : Except Fault α) {next : α → Run ω β} {next' : α → Run ω' β}
    (follows : ∀ a, Alike R (next a) (next' a)) :
    Alike R (liftM result >>= next) (liftM result >>= next') :=
  (lift result).bind follows

theorem change {next : ω → ω} {next' : ω' → ω'}
    (kept : ∀ world world', R world world' → R (next world) (next' world')) :
    Alike R (Run.change next) (Run.change next') :=
  fun world world' related => ⟨rfl, kept world world' related⟩

/-- Operations that first look at their worlds have to be alike for related worlds only. -/
theorem world_bind {next : ω → Run ω β} {next' : ω' → Run ω' β}
    (follows : ∀ world world', R world world' → Alike R (next world) (next' world')) :
    Alike R (Run.world >>= next) (Run.world >>= next') :=
  fun world world' related => follows world world' related world world' related

theorem handling {first : Run ω α} {second : Run ω' α} {handler : Rejection → Run ω α}
    {handler' : Rejection → Run ω' α} (start : Alike R first second)
    (handled : ∀ rejection, Alike R (handler rejection) (handler' rejection)) :
    Alike R (Run.handling first handler) (Run.handling second handler') := by
  intro world world' related
  obtain ⟨same, kept⟩ := start world world' related
  rcases begun : first.outcome world with ⟨answer, after⟩
  rcases begun' : second.outcome world' with ⟨answer', after'⟩
  rw [begun, begun'] at same kept
  cases same
  rw [outcome_handling, outcome_handling, begun, begun']
  cases answer with
  | ok a => exact ⟨rfl, kept⟩
  | error fault =>
      cases fault with
      | rejected rejection => exact handled rejection after after' kept
      | _ => exact ⟨rfl, kept⟩

/-- A rejection that stands for an answer is answered the same, and others pass. -/
theorem excusing {first : Run ω α} {second : Run ω' α} (start : Alike R first second)
    (excused : Rejection → Bool) (a : α) :
    Alike R
      (Run.handling first fun rejection =>
        if excused rejection then Pure.pure a else MonadExcept.throw (.rejected rejection))
      (Run.handling second fun rejection =>
        if excused rejection then Pure.pure a else MonadExcept.throw (.rejected rejection)) := by
  apply start.handling
  intro rejection
  split
  · exact pure a
  · exact throw _

/-- An operation on a part of two worlds does the same if the part is. -/
theorem within {σ : Type} {part : ω → σ} {replace : σ → ω → ω} {part' : ω' → σ}
    {replace' : σ → ω' → ω'} (same : ∀ world world', R world world' → part world = part' world')
    (kept : ∀ after world world', R world world' → R (replace after world) (replace' after world'))
    (action : Run σ α) : Alike R (action.within part replace) (action.within part' replace') := by
  intro world world' related
  rw [outcome_within, outcome_within, same world world' related]
  exact ⟨rfl, kept _ _ _ related⟩

end Alike

end Run

namespace Store

/-- Two stores serve the same methods, answer alike, and answer for equally long. -/
structure Alike (R : ω → ω' → Prop) (first : Store ω) (second : Store ω') : Prop where
  serves : first.serves = second.serves
  answer : ∀ method request,
    Run.Alike R (first.answer method request) (second.answer method request)
  patience : ∀ world world', R world world' → first.patience world = second.patience world'

namespace Alike

variable {first : Store ω} {second : Store ω'}

theorem require (alike : first.Alike R second) (method : Method) :
    Run.Alike R (first.require method) (second.require method) := by
  unfold Store.require
  rw [alike.serves]
  split
  · exact .pure ()
  · exact .throw _

theorem send (alike : first.Alike R second) (method : Method) (request : Request) :
    Run.Alike R (first.send method request) (second.send method request) :=
  (alike.require method).bind fun _ => alike.answer method request

theorem limit (alike : first.Alike R second) : Run.Alike R first.limit second.limit := by
  apply Run.Alike.world_bind
  intro world world' related
  rw [alike.patience world world' related]
  exact .pure _

end Alike

end Store

end TokenTable
