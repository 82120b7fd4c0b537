import TokenTable.Fault

/-! # Runs against a world

An operation on a store reads and changes a world and may fail. What it changed before it failed
stays changed. The laws of this module say what each way of building an operation makes of a world.
Main statements: `outcome_bind`, `outcome_handling`, and `ext`, an operation is what it makes of
every world. -/

namespace TokenTable

/-- An operation that may fail, over a world `ω` whose changes outlast a failure. -/
abbrev Run (ω α : Type) := ExceptT Fault (StateM ω) α

namespace Run

variable {ω α β : Type}

/-- The outcome of an operation and the world it leaves. -/
def outcome (action : Run ω α) (world : ω) : Except Fault α × ω := (action.run).run world

/-- The operation with a given outcome in every world. -/
def ofOutcome (result : ω → Except Fault α × ω) : Run ω α := ExceptT.mk fun world => result world

def world : Run ω ω := ofOutcome fun world => (.ok world, world)

def change (next : ω → ω) : Run ω Unit := ofOutcome fun world => (.ok (), next world)

/-- An operation on a part of a world; the rest of the world stays. -/
def within {σ : Type} (part : ω → σ) (replace : σ → ω → ω) (action : Run σ α) : Run ω α :=
  ofOutcome fun world =>
    let (result, after) := action.outcome (part world)
    (result, replace after world)

/-- Hands a rejection by the store to a handler; other faults pass. -/
def handling (action : Run ω α) (handler : Rejection → Run ω α) : Run ω α :=
  tryCatch action fun fault =>
    match fault with
    | .rejected rejection => handler rejection
    | other => throw other

@[simp] theorem outcome_ofOutcome (result : ω → Except Fault α × ω) (world : ω) :
    (ofOutcome result).outcome world = result world := rfl

@[simp] theorem outcome_pure (a : α) (world : ω) :
    (pure a : Run ω α).outcome world = (.ok a, world) := rfl

@[simp] theorem outcome_throw (fault : Fault) (world : ω) :
    (throw fault : Run ω α).outcome world = (.error fault, world) := rfl

@[simp] theorem outcome_lift (result : Except Fault α) (world : ω) :
    (liftM result : Run ω α).outcome world = (result, world) := rfl

@[simp] theorem outcome_world (world : ω) :
    (Run.world : Run ω ω).outcome world = (.ok world, world) := rfl

@[simp] theorem outcome_change (next : ω → ω) (world : ω) :
    (change next).outcome world = (.ok (), next world) := rfl

@[simp] theorem outcome_within {σ : Type} (part : ω → σ) (replace : σ → ω → ω)
    (action : Run σ α) (world : ω) :
    (action.within part replace).outcome world =
      ((action.outcome (part world)).1, replace (action.outcome (part world)).2 world) := rfl

/-- A sequence goes on in the world that its first part left, unless that part failed. -/
@[simp] theorem outcome_bind (action : Run ω α) (next : α → Run ω β) (world : ω) :
    (action >>= next).outcome world =
      match action.outcome world with
      | (.ok a, after) => (next a).outcome after
      | (.error fault, after) => (.error fault, after) := by
  simp only [outcome, bind, ExceptT.bind, ExceptT.run, ExceptT.mk, StateT.run, StateT.bind]
  rcases action world with ⟨result | result, after⟩ <;> rfl

/-- A sequence succeeds exactly when its first part does and then its second. -/
theorem outcome_bind_eq_ok_iff (action : Run ω α) (next : α → Run ω β) (world after : ω) (b : β) :
    (action >>= next).outcome world = (.ok b, after) ↔
      ∃ a middle, action.outcome world = (.ok a, middle) ∧
        (next a).outcome middle = (.ok b, after) := by
  rw [outcome_bind]
  rcases action.outcome world with ⟨fault | a, middle⟩
  · simp
  · constructor
    · intro done
      exact ⟨a, middle, rfl, done⟩
    · rintro ⟨_, _, same, done⟩
      cases same
      exact done

/-- A sequence fails exactly when its first part does, or its second after the first. -/
theorem outcome_bind_eq_error_iff (action : Run ω α) (next : α → Run ω β) (world after : ω)
    (fault : Fault) :
    (action >>= next).outcome world = (.error fault, after) ↔
      action.outcome world = (.error fault, after) ∨
        ∃ a middle, action.outcome world = (.ok a, middle) ∧
          (next a).outcome middle = (.error fault, after) := by
  rw [outcome_bind]
  rcases action.outcome world with ⟨failure | a, middle⟩
  · simp
  · constructor
    · intro failed
      exact Or.inr ⟨a, middle, rfl, failed⟩
    · rintro (failed | ⟨_, _, same, failed⟩)
      · cases failed
      · cases same
        exact failed

/-- Two operations are the same if they make the same of every world. -/
theorem ext (first second : Run ω α) (same : ∀ world, first.outcome world = second.outcome world) :
    first = second := funext same

theorem throw_bind (fault : Fault) (next : α → Run ω β) :
    (throw fault : Run ω α) >>= next = throw fault := rfl

/-- A rejection is handled in the world that the operation left; all else passes. -/
@[simp] theorem outcome_handling (action : Run ω α) (handler : Rejection → Run ω α) (world : ω) :
    (handling action handler).outcome world =
      match action.outcome world with
      | (.error (.rejected rejection), after) => (handler rejection).outcome after
      | other => other := by
  simp only [outcome, handling, tryCatch, tryCatchThe, MonadExceptOf.tryCatch, ExceptT.tryCatch,
    ExceptT.run, ExceptT.mk, StateT.run, bind, StateT.bind]
  rcases action world with ⟨result | result, after⟩
  · cases result <;> rfl
  · rfl

end Run

end TokenTable
