import TokenTable.Run

/-! # Stores

A store answers calls of named methods with maps, and may refuse. It may change its world with every
call, failed or not. A store knows a bound on the calls that it will still answer, so that
operations which go on until a page is the last one come to an end. Main statement:
`within_answer`, a store placed in a larger world changes only its part. -/

namespace TokenTable

inductive Method where
  | getItem
  | putItem
  | updateItem
  | deleteItem
  | query
  | scan
  | readBatch
  | writeBatch
  | createTable
  | deleteTable
  | describeTable
deriving DecidableEq, Repr

namespace Method

/-- The name of a method on the wire. -/
def name : Method → String
  | .getItem => "get_item"
  | .putItem => "put_item"
  | .updateItem => "update_item"
  | .deleteItem => "delete_item"
  | .query => "query"
  | .scan => "scan"
  | .readBatch => "batch_get_item"
  | .writeBatch => "batch_write_item"
  | .createTable => "create_table"
  | .deleteTable => "delete_table"
  | .describeTable => "describe_table"

def all : List Method :=
  [.getItem, .putItem, .updateItem, .deleteItem, .query, .scan, .readBatch, .writeBatch,
    .createTable, .deleteTable, .describeTable]

def ofName? (name : String) : Option Method := all.find? (·.name == name)

theorem ofName?_name (method : Method) : ofName? method.name = some method := by
  cases method <;> decide

end Method

/-- The named arguments of a call, in order. -/
abbrev Request := List (String × Value)

/-- The named arguments that a map holds; every key must be a name. -/
def Request.ofValue : Value → Except Fault Request
  | .map entries => entries.mapM fun entry =>
    match entry.1 with
    | .text name => .ok (name, entry.2)
    | _ => .error .wrongShape
  | _ => .error .wrongShape

structure Store (ω : Type) where
  serves : Method → Bool
  answer : Method → Request → Run ω Value
  /-- How many more calls the store may answer before it refuses. -/
  patience : ω → Nat

namespace Store

variable {ω σ : Type}

/-- Looks a method up before it is called. -/
def require (store : Store ω) (method : Method) : Run ω Unit :=
  if store.serves method then pure () else throw .noSuchMember

def send (store : Store ω) (method : Method) (request : Request) : Run ω Value := do
  store.require method
  store.answer method request

/-- The number of calls after which an operation gives up on the store. -/
def limit (store : Store ω) : Run ω Nat := return store.patience (← Run.world) + 1

/-- A store placed in a larger world. -/
def within (part : ω → σ) (replace : σ → ω → ω) (store : Store σ) : Store ω where
  serves := store.serves
  answer method request := (store.answer method request).within part replace
  patience world := store.patience (part world)

/-- A store that refuses requests with an argument of a reserved name. -/
def reserving (name : String) (store : Store ω) : Store ω where
  serves := store.serves
  answer method request :=
    if request.any (·.1 == name) then throw .wrongShape else store.answer method request
  patience := store.patience

@[simp] theorem outcome_limit (store : Store ω) (world : ω) :
    store.limit.outcome world = (.ok (store.patience world + 1), world) := rfl

/-- A store placed in a larger world answers as it does alone. -/
theorem within_answer (part : ω → σ) (replace : σ → ω → ω) (store : Store σ) (method : Method)
    (request : Request) (world : ω) :
    ((store.within part replace).answer method request).outcome world =
      (((store.answer method request).outcome (part world)).1,
        replace ((store.answer method request).outcome (part world)).2 world) := rfl

end Store

end TokenTable
