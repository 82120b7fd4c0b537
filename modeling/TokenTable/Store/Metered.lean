import TokenTable.Meter
import TokenTable.Store.Basic

/-! # Metered stores

A metered store answers as the store it wraps and records a metric of every call that reached a
method. Main statement: `metered_answer`, the answer is the wrapped store's own. -/

namespace TokenTable.Store

variable {ω : Type}

def succeeded {α : Type} : Except Fault α → Bool
  | .ok _ => true
  | .error _ => false

/-- An operation that leaves a metric behind, whether it succeeds or not. -/
def measured {α : Type} (service operation : String) (record : Metric → ω → ω)
    (action : Run ω α) : Run ω α :=
  .ofOutcome fun world =>
    let (result, after) := action.outcome world
    (result, record ⟨service, operation, succeeded result⟩ after)

/-- A store with something done around each of its calls. -/
def surrounded (store : Store ω) (around : String → Request → Run ω Value → Run ω Value) :
    Store ω where
  serves := store.serves
  answer method request := around method.name request (store.answer method request)
  patience := store.patience

/-- A store that records a metric of every call. -/
def metered (store : Store ω) (service : String) (record : Metric → ω → ω) : Store ω :=
  store.surrounded fun name _ => measured service name record

theorem metered_answer (store : Store ω) (service : String) (record : Metric → ω → ω)
    (method : Method) (request : Request) (world : ω) :
    (((store.metered service record).answer method request).outcome world).1 =
      ((store.answer method request).outcome world).1 := rfl

end TokenTable.Store
