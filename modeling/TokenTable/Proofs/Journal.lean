import TokenTable.Batch.Read
import TokenTable.Proofs.Alike

/-! # Journals

A journal tells what an operation did to the outside, in order: it asked whether it was cancelled,
it paused, it called. A world with a journal beside it is a world like any other, so an operation
that is run in it runs as it does without the journal (`Keeps.bind`, `Keeps.noting`), and what it
did can be read off afterwards: its calls (`Event.calls`), and what it did up to the last of some
calls (`Event.upTo`).
-/

namespace TokenTable

/-- What an operation did, as a journal tells it. -/
inductive Event (κ : Type) where
  | polled
  | paused (seconds : Value)
  | called (call : κ)

/-- A world with a journal beside it. -/
abbrev Journaled (ω κ : Type) := ω × List (Event κ)

/-- The calls that a journal tells of, in order. -/
def Event.calls {κ : Type} (journal : List (Event κ)) : List κ :=
  journal.filterMap fun event =>
    match event with
    | .called call => some call
    | _ => none

@[simp] theorem Event.calls_append {κ : Type} (first second : List (Event κ)) :
    Event.calls (first ++ second) = Event.calls first ++ Event.calls second :=
  List.filterMap_append

/-- A journal that notes calls only tells of these. -/
theorem Event.calls_map_called {κ : Type} (calls : List κ) :
    Event.calls (calls.map .called) = calls := by
  rw [Event.calls, List.filterMap_map]
  exact List.filterMap_some

namespace Event

variable {κ : Type}

/-- The pauses and the calls that a journal tells of. -/
def acts (journal : List (Event κ)) : List (Event κ) :=
  journal.filter fun event =>
    match event with
    | .polled => false
    | _ => true

/-- A journal up to the call with a number, counted from one. -/
def upTo : Nat → List (Event κ) → List (Event κ)
  | 0, _ => []
  | _ + 1, [] => []
  | n + 1, .called call :: rest => .called call :: upTo n rest
  | n + 1, event :: rest => event :: upTo (n + 1) rest

/-- The last that a journal tells of is a pause. -/
def EndsInPause (journal : List (Event κ)) : Prop :=
  ∃ earlier seconds, journal = earlier ++ [.paused seconds]

@[simp] theorem acts_append (first second : List (Event κ)) :
    acts (first ++ second) = acts first ++ acts second := List.filter_append ..

@[simp] theorem acts_pauses (seconds : List Value) :
    acts (seconds.map .paused : List (Event κ)) = seconds.map .paused := by
  rw [acts, List.filter_eq_self, List.forall_mem_map]
  exact fun _ _ => rfl

@[simp] theorem calls_pauses (seconds : List Value) :
    calls (seconds.map .paused : List (Event κ)) = [] := by
  rw [calls, List.filterMap_eq_nil_iff, List.forall_mem_map]
  exact fun _ _ => rfl

@[simp] theorem upTo_zero (journal : List (Event κ)) : upTo 0 journal = [] := by
  cases journal <;> rfl

theorem upTo_pauses (n : Nat) (seconds : List Value) (rest : List (Event κ)) :
    upTo (n + 1) (seconds.map .paused ++ rest) = seconds.map .paused ++ upTo (n + 1) rest := by
  induction seconds with
  | nil => rfl
  | cons first others ih =>
      rw [List.map_cons, List.cons_append, upTo, ih]
      · rfl
      · exact nofun

theorem length_upTo_le (n : Nat) (journal : List (Event κ)) :
    (upTo n journal).length ≤ journal.length := by
  induction journal generalizing n with
  | nil => cases n <;> exact Nat.le_refl 0
  | cons event rest ih =>
      cases n with
      | zero => exact Nat.zero_le _
      | succ n =>
          cases event with
          | called => exact Nat.succ_le_succ (ih n)
          | polled | paused => exact Nat.succ_le_succ (ih (n + 1))

/-- What comes after the last call that is wanted does not matter. -/
theorem upTo_append_of_le {n : Nat} {first : List (Event κ)} (second : List (Event κ))
    (within : n ≤ (calls first).length) : upTo n (first ++ second) = upTo n first := by
  induction first generalizing n with
  | nil =>
      cases Nat.le_zero.mp within
      rw [upTo_zero, upTo_zero]
  | cons event rest ih =>
      cases n with
      | zero => rfl
      | succ n =>
          cases event with
          | called call => exact congrArg (List.cons _) (ih (Nat.le_of_succ_le_succ within))
          | polled | paused => exact congrArg (List.cons _) (ih within)

/-- A pause after the last call is not told up to that call. -/
theorem EndsInPause.upTo_ne {journal : List (Event κ)} (ends : EndsInPause journal) {n : Nat}
    (all : n = (calls journal).length) : upTo n journal ≠ journal := by
  obtain ⟨earlier, seconds, rfl⟩ := ends
  rw [calls_append] at all
  have within : n ≤ (calls earlier).length := Nat.le_of_eq (all.trans (by simp [calls]))
  intro same
  have shorter := length_upTo_le n earlier
  rw [← upTo_append_of_le [.paused seconds] within, same, List.length_append] at shorter
  exact absurd shorter (Nat.not_succ_le_self _)

theorem calls_upTo (n : Nat) (journal : List (Event κ)) :
    calls (upTo n journal) = (calls journal).take n := by
  induction journal generalizing n with
  | nil => cases n <;> rfl
  | cons event rest ih =>
      cases n with
      | zero => rfl
      | succ n =>
          cases event with
          | called call => exact congrArg (List.cons call) (ih n)
          | polled | paused => exact ih (n + 1)

/-- Calls are acts. -/
theorem calls_acts (journal : List (Event κ)) : calls (acts journal) = calls journal := by
  induction journal with
  | nil => rfl
  | cons event rest ih =>
      cases event with
      | polled | paused => exact ih
      | called call => exact congrArg (List.cons call) ih

/-- What one turn does: it pauses and calls. -/
theorem acts_turn (seconds : List Value) (call : κ) (rest : List (Event κ)) :
    acts (seconds.map .paused ++ .called call :: rest) =
      seconds.map .paused ++ .called call :: acts rest := by
  rw [acts_append, acts_pauses]
  rfl

theorem calls_turn (seconds : List Value) (call : κ) (rest : List (Event κ)) :
    calls (seconds.map .paused ++ .called call :: rest) = call :: calls rest := by
  rw [calls_append, calls_pauses]
  rfl

theorem upTo_turn (n : Nat) (seconds : List Value) (call : κ) (rest : List (Event κ)) :
    upTo (n + 1) (seconds.map .paused ++ .called call :: rest) =
      seconds.map .paused ++ .called call :: upTo n rest := by
  rw [upTo_pauses, upTo]

end Event

/-- A call of a store and how it was answered. -/
structure Exchange where
  method : Method
  request : Request
  answer : Except Fault Value

namespace Run

variable {ω κ α β : Type}

/-- An operation that leaves a note of itself in the journal, whether it succeeds or not. -/
def noting (note : Except Fault α → Event κ) (action : Run ω α) : Run (Journaled ω κ) α :=
  .ofOutcome fun world =>
    let (result, after) := action.outcome world.1
    (result, (after, world.2 ++ [note result]))

@[simp] theorem outcome_noting (note : Except Fault α → Event κ) (action : Run ω α)
    (world : Journaled ω κ) :
    (noting note action).outcome world =
      ((action.outcome world.1).1,
        ((action.outcome world.1).2, world.2 ++ [note (action.outcome world.1).1])) := rfl

/-- The first operation does what the second does and only adds to the journal. -/
def Keeps (full : Run (Journaled ω κ) α) (bare : Run ω α) : Prop :=
  ∀ world journal, ∃ added,
    full.outcome (world, journal) =
      ((bare.outcome world).1, ((bare.outcome world).2, journal ++ added))

theorem Keeps.pure (a : α) : Keeps (Pure.pure a : Run (Journaled ω κ) α) (Pure.pure a) := by
  intro world journal
  exact ⟨[], by simp⟩

theorem Keeps.throw (fault : Fault) :
    Keeps (MonadExcept.throw fault : Run (Journaled ω κ) α) (MonadExcept.throw fault) := by
  intro world journal
  exact ⟨[], by simp⟩

theorem Keeps.lift (result : Except Fault α) :
    Keeps (liftM result : Run (Journaled ω κ) α) (liftM result) := by
  intro world journal
  exact ⟨[], by simp⟩

theorem Keeps.noting (note : Except Fault α → Event κ) (action : Run ω α) :
    Keeps (action.noting note) action := by
  intro world journal
  exact ⟨[note (action.outcome world).1], outcome_noting _ _ _⟩

/-- A world with a journal is another world with a journal beside it that tells of some events
first. -/
def Beside (journal : List (Event κ)) (full : Journaled ω κ) (bare : ω) : Prop :=
  full.1 = bare ∧ journal <+: full.2

theorem Keeps.alike {full : Run (Journaled ω κ) α} {bare : Run ω α} (keeps : Keeps full bare)
    (journal : List (Event κ)) : Alike (Beside journal) full bare := by
  rintro ⟨world, later⟩ _ ⟨rfl, told⟩
  obtain ⟨added, same⟩ := keeps world later
  rw [same]
  exact ⟨rfl, rfl, told.trans (List.prefix_append later added)⟩

/-- Operations that do the same whatever the journal tells of first only add to it. -/
theorem Keeps.of_alike {full : Run (Journaled ω κ) α} {bare : Run ω α}
    (alike : ∀ journal, Alike (Beside journal) full bare) : Keeps full bare := by
  intro world journal
  obtain ⟨answered, kept, added, told⟩ :=
    alike journal (world, journal) world ⟨rfl, List.prefix_rfl⟩
  exact ⟨added, Prod.ext answered (Prod.ext kept told.symm)⟩

theorem Keeps.bind {full : Run (Journaled ω κ) α} {bare : Run ω α}
    {fullNext : α → Run (Journaled ω κ) β} {bareNext : α → Run ω β} (first : Keeps full bare)
    (second : ∀ a, Keeps (fullNext a) (bareNext a)) :
    Keeps (full >>= fullNext) (bare >>= bareNext) :=
  .of_alike fun journal => (first.alike journal).bind fun a => (second a).alike journal

/-- An operation that calls nothing. -/
def Silent (action : Run (Journaled ω κ) α) : Prop :=
  ∀ world, Event.calls (action.outcome world).2.2 = Event.calls world.2

theorem Silent.pure (a : α) : Silent (Pure.pure a : Run (Journaled ω κ) α) := fun _ => rfl

theorem Silent.lift_bind {result : Except Fault α} {next : α → Run (Journaled ω κ) β}
    (follows : ∀ a, Silent (next a)) : Silent (liftM result >>= next) := by
  intro world
  rw [outcome_bind, outcome_lift]
  cases result with
  | error fault => rfl
  | ok a => exact follows a world

theorem Silent.noting {note : Except Fault α → Event κ}
    (other : ∀ result, Event.calls [note result] = [])
    (action : Run ω α) : Silent (action.noting note) := by
  intro world
  rw [outcome_noting, Event.calls_append, other, List.append_nil]

end Run

namespace Store

variable {ω : Type}

/-- A store whose calls are noted with their answers. -/
def journaled (store : Store ω) : Store (Journaled ω Exchange) where
  serves := store.serves
  answer method request :=
    (store.answer method request).noting fun answer => .called ⟨method, request, answer⟩
  patience world := store.patience world.1

/-- A call is answered, unless the store does not serve its method. -/
theorem outcome_send (store : Store ω) (method : Method) (request : Request) (world : ω) :
    (store.send method request).outcome world =
      if store.serves method then (store.answer method request).outcome world
      else (.error .noSuchMember, world) := by
  rw [send, require, Run.outcome_bind]
  by_cases served : store.serves method = true
  · rw [if_pos served, if_pos served]
    rfl
  · rw [if_neg served, if_neg served]
    rfl

/-- A call is noted with its answer, unless the store does not serve its method. -/
theorem outcome_send_journaled (store : Store ω) (method : Method) (request : Request)
    (world : Journaled ω Exchange) :
    (store.journaled.send method request).outcome world =
      if store.serves method then
        let (answer, after) := (store.answer method request).outcome world.1
        (answer, (after, world.2 ++ [.called ⟨method, request, answer⟩]))
      else (.error .noSuchMember, world) := by
  rw [outcome_send]
  rfl

theorem outcome_send_noted {store : Store ω} {method : Method} {request : Request}
    {answer : Except Fault Value} {world after : ω} (serves : store.serves method = true)
    (answered : (store.answer method request).outcome world = (answer, after))
    (journal : List (Event Exchange)) :
    (store.journaled.send method request).outcome (world, journal) =
      (answer, (after, journal ++ [.called ⟨method, request, answer⟩])) := by
  rw [outcome_send_journaled, if_pos serves, answered]

end Store

namespace Batch

variable {ω κ : Type}

/-- A pause that is noted. -/
def journaledPause (pause : Value → Run ω Unit) (seconds : Value) : Run (Journaled ω κ) Unit :=
  (pause seconds).noting fun _ => .paused seconds

/-- A control whose questions and pauses are noted. -/
def Control.journaled (control : Control ω) : Control (Journaled ω κ) where
  maxRetries := control.maxRetries
  pause := control.pause.map journaledPause
  cancelled := control.cancelled.map fun poll => poll.noting fun _ => .polled

/-- A plan whose questions, pauses and submitted pages are noted. -/
def Plan.journaled (plan : Plan ω) : Plan (Journaled ω (List Value)) where
  operation := plan.operation
  submit page := (plan.submit page).noting fun _ => .called page
  restore := plan.restore
  report := plan.report
  retries := plan.retries
  pause := plan.pause.map journaledPause
  cancelled := plan.cancelled.map fun poll => poll.noting fun _ => .polled

end Batch

end TokenTable
