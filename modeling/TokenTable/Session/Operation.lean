import TokenTable.Session.Command

/-! # Operations by named arguments

A session asks for the operations of its store and of its client with named arguments. An operation
requires some arguments and has defaults for others; arguments that do not fit are refused before
anything is done with them. Main statement: `call_append_default`, where an argument is left out its
default holds. -/

namespace TokenTable

/-- An operation that takes named arguments. -/
structure NamedOperation (κ : Type) where
  /-- The arguments that must be given. -/
  required : List String
  /-- The arguments that may be left out, with the values that they have then. -/
  defaults : List (String × Value)
  /-- The command that asks for the operation, from the value of every argument. -/
  command : (String → Value) → κ

namespace NamedOperation

variable {κ : Type}

def signature (operation : NamedOperation κ) : Signature :=
  ⟨operation.required, operation.defaults.map Prod.fst⟩

/-- The value of an argument: what was given, or else the default. -/
def argument (operation : NamedOperation κ) (given : List (String × Value)) (name : String) :
    Value :=
  ((given ++ operation.defaults).lookup name).getD .null

def call (operation : NamedOperation κ) (given : List (String × Value)) : Except Fault κ :=
  if operation.signature.fits (given.map Prod.fst) then
    .ok (operation.command (operation.argument given))
  else .error .wrongShape

section

variable {operation : NamedOperation κ} {given : List (String × Value)} {name : String}
  {value : Value}

theorem argument_append_default (isDefault : operation.defaults.lookup name = some value) :
    operation.argument (given ++ [(name, value)]) = operation.argument given := by
  funext other
  simp only [argument, List.lookup_append]
  cases given.lookup other with
  | some found => rfl
  | none =>
      by_cases same : other = name
      · rw [same, isDefault, List.lookup_cons_self]
        rfl
      · have apart : (other == name) = false := beq_eq_false_iff_ne.mpr same
        rw [List.lookup_cons, apart]
        rfl

theorem fits_append_default (isDefault : operation.defaults.lookup name = some value)
    (fits : operation.signature.fits (given.map Prod.fst) = true) :
    operation.signature.fits ((given ++ [(name, value)]).map Prod.fst) = true := by
  have optional : name ∈ operation.signature.optional := by
    obtain ⟨before, after, same, _⟩ := List.lookup_eq_some_iff.mp isDefault
    simp [signature, same]
  rw [Signature.fits_iff] at fits ⊢
  obtain ⟨complete, known⟩ := fits
  rw [List.map_append]
  refine ⟨fun other needed => List.mem_append_left _ (complete other needed),
    fun other member => ?_⟩
  rcases List.mem_append.mp member with early | late
  · exact known other early
  · rw [List.mem_singleton.mp late]
    exact Or.inr optional

/-- Where an argument is left out its default holds: it may as well be given. -/
theorem call_append_default (isDefault : operation.defaults.lookup name = some value) {made : κ}
    (called : operation.call given = .ok made) :
    operation.call (given ++ [(name, value)]) = .ok made := by
  rw [call] at called ⊢
  split at called
  · rw [if_pos (fits_append_default isDefault ‹_›), argument_append_default isDefault]
    exact called
  · cases called

end

end NamedOperation

/-- How batches of the store are retried, paused and cancelled where nothing else is said. -/
def batchDefaults : List (String × Value) :=
  [("max_retries", ClientOptions.default.retries), ("sleep", .bool ClientOptions.default.pauses),
    ("cancel", .null)]

/-- The operations that a store has beside its methods. -/
def StoreCommand.operation? : String → Option (NamedOperation StoreCommand)
  | "batch_get" => some {
      required := ["table_name", "keys"]
      defaults := [("consistent_read", .bool false), ("order", .null)] ++ batchDefaults
      command argument :=
        .read (argument "table_name") (argument "keys") (argument "consistent_read").isGiven
          (argument "order") (argument "max_retries") (argument "sleep").isGiven
          (.ofValue (argument "cancel")) }
  | "batch_write" => some {
      required := ["table_name", "items"]
      defaults := ("mode", .text Batch.Mode.put.name) :: batchDefaults
      command argument :=
        .write (argument "table_name") (argument "items") (argument "mode")
          (argument "max_retries") (argument "sleep").isGiven (.ofValue (argument "cancel")) }
  | _ => none

/-- The options of a client; its connection has settings of its own. -/
def ClientOptions.operation : NamedOperation ClientOptions where
  required := []
  defaults :=
    [("settings", .null), ("max_retries", default.retries), ("sleep", .bool default.pauses),
      ("wait_timeout_seconds", default.waitTimeout),
      ("poll_interval_seconds", default.pollInterval)]
  command argument :=
    { retries := argument "max_retries", pauses := (argument "sleep").isGiven
      waitTimeout := argument "wait_timeout_seconds"
      pollInterval := argument "poll_interval_seconds" }

/-- The options of a query, beside its table and its key conditions. -/
def Client.QueryOptions.operation : NamedOperation QueryOptions where
  required := []
  defaults :=
    [("index_name", default.index), ("limit", default.limit),
      ("consistent_read", default.consistent), ("exclusive_start_key", default.startKey),
      ("scan_forward", default.forward), ("query_filter", default.filter)]
  command argument :=
    { index := argument "index_name", limit := argument "limit"
      consistent := argument "consistent_read", startKey := argument "exclusive_start_key"
      forward := argument "scan_forward", filter := argument "query_filter" }

/-- The layout of a new table, which has one unit of either capacity. -/
def Layout.operation : NamedOperation Layout where
  required := ["table_name", "hash_key"]
  defaults :=
    [("range_key", .null), ("local_secondary_indexes", .tuple []), ("read_capacity", .int 1),
      ("write_capacity", .int 1)]
  command argument :=
    { table := argument "table_name", hashKey := argument "hash_key"
      rangeKey := argument "range_key", indexes := argument "local_secondary_indexes"
      readCapacity := argument "read_capacity", writeCapacity := argument "write_capacity" }

/-- The operations of a client on items. A scan is kept under an identifier. -/
def ItemCommand.operation? : String → Option (NamedOperation ItemCommand)
  | "get" => some {
      required := ["table_name", "key"]
      defaults := [("consistent_read", .bool false)]
      command argument :=
        .get (argument "table_name") (argument "key") (argument "consistent_read").isGiven }
  | "put" => some {
      required := ["table_name", "item"]
      defaults := [("expected", .null)]
      command argument :=
        .put (argument "table_name") (argument "item") (argument "expected") }
  | "update" => some {
      required := ["table_name", "key", "updates"]
      defaults := [("expected", .null), ("return_values", .text "UPDATE_NEW")]
      command argument :=
        .update (argument "table_name") (argument "key") (argument "updates")
          (argument "expected") (argument "return_values") }
  | "delete" => some {
      required := ["table_name", "key"]
      defaults := []
      command argument := .delete (argument "table_name") (argument "key") }
  | "batch_get" => some {
      required := ["table_name", "keys"]
      defaults := [("consistent_read", .bool false), ("order", .null), ("cancel", .null)]
      command argument :=
        .read (argument "table_name") (argument "keys") (argument "consistent_read").isGiven
          (argument "order") (.ofValue (argument "cancel")) }
  | "batch_put" => some {
      required := ["table_name", "items"]
      defaults := [("cancel", .null)]
      command argument :=
        .write (argument "table_name") (argument "items") .put (.ofValue (argument "cancel")) }
  | "batch_delete" => some {
      required := ["table_name", "keys"]
      defaults := [("cancel", .null)]
      command argument :=
        .write (argument "table_name") (argument "keys") .delete (.ofValue (argument "cancel")) }
  | "query" => some {
      required := ["table_name", "conditions"]
      defaults := Client.QueryOptions.operation.defaults
      command argument :=
        .query (argument "table_name") (argument "conditions")
          (Client.QueryOptions.operation.command argument) }
  | "count" => some {
      required := ["table_name", "conditions"]
      defaults := [("index_name", .null)]
      command argument :=
        .count (argument "table_name") (argument "conditions") (argument "index_name") }
  | "scan" => some {
      required := ["table_name"]
      defaults := [("id", .null), ("filter", .null), ("limit", .null)]
      command argument :=
        .scan (argument "id").written (argument "table_name") (argument "filter")
          (argument "limit") }
  | _ => none

/-- The operations of a client on tables. -/
def TableCommand.operation? : String → Option (NamedOperation TableCommand)
  | "create_table" => some {
      required := Layout.operation.required
      defaults := Layout.operation.defaults ++ [("wait", .bool true)]
      command argument := .create (Layout.operation.command argument) (argument "wait").isGiven }
  | "delete_table" => some {
      required := ["table_name"]
      defaults := [("wait", .bool true), ("ignore_missing", .bool false)]
      command argument :=
        .delete (argument "table_name") (argument "wait").isGiven
          (argument "ignore_missing").isGiven }
  | "table_exists" => some {
      required := ["table_name"]
      defaults := []
      command argument := .exists (argument "table_name") }
  | "empty_table" => some {
      required := ["table_name"]
      defaults := []
      command argument := .empty (argument "table_name") }
  | _ => none

namespace Command

/-- What becomes of a call whose arguments do not fit. -/
def misfitOf (name : String) (given : List (String × Value)) : MisfitCommand :=
  let argument name := (given.lookup name).getD .null
  if name = "scan" then .scan (argument "id").written
  else .cancellable (.ofValue (argument "cancel"))

/-- The command of an operation that is called by its name. -/
def ofCall {κ : Type} (wrap : κ → Command) (operation : NamedOperation κ) (name : String)
    (given : List (String × Value)) : Command :=
  match operation.call given with
  | .ok command => wrap command
  | .error _ => .misfit (misfitOf name given)

/-- The command that calls an operation of the store with named arguments. -/
def ofStoreCall? (name : String) (given : List (String × Value)) : Option Command :=
  (StoreCommand.operation? name).map fun operation => ofCall .store operation name given

/-- The command that calls an operation of the client with named arguments. -/
def ofClientCall? (name : String) (given : List (String × Value)) : Option Command :=
  ((ItemCommand.operation? name).map fun operation => ofCall .item operation name given) <|>
    (TableCommand.operation? name).map fun operation => ofCall .table operation name given

/-- The command that sets up the client with named options. -/
def ofOptions (given : List (String × Value)) : Command :=
  ofCall (fun options => .item (.configure options)) ClientOptions.operation "configure" given

/-- A client that is set up without options has the default ones. -/
theorem ofOptions_nil : ofOptions [] = .item (.configure .default) := rfl

/-- A query that says no more than it must has the default options. -/
theorem ofClientCall?_query (table conditions : Value) :
    ofClientCall? "query" [("table_name", table), ("conditions", conditions)] =
      some (.item (.query table conditions .default)) := rfl

end Command

end TokenTable
