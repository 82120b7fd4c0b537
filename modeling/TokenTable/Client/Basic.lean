import TokenTable.Batch.Write
import TokenTable.Condition
import TokenTable.Update

/-! # Client operations on items

A client reads and writes items of a store's tables in token form. Arguments are brought to native
form before the store is called, so a malformed one leaves the store alone. Main statement:
`put_of_malformed`. -/

namespace TokenTable

structure Client (ω : Type) where
  store : Store ω
  retries : Value
  pause : Option (Value → Run ω Unit)
  clock : ω → Binary64
  waitTimeout : Value
  pollInterval : Value

namespace Client

variable {ω : Type}

def control (client : Client ω) (cancelled : Option (Run ω Bool)) : Batch.Control ω :=
  { maxRetries := client.retries, pause := client.pause, cancelled }

/-- An argument of a request that is only sent under a condition. -/
def optional (sent : Bool) (name : String) (value : Value) : Request :=
  if sent then [(name, value)] else []

/-- An argument of a request that is only sent if it is not null. -/
def sentUnlessNull (name : String) (value : Value) : Request := optional (!value.isNull) name value

def conditionsNamed (name : String) (conditions : Value) : Except Fault Request := do
  if conditions.isGiven then return [(name, ← Condition.toNativeAll conditions)] else return []

def get (client : Client ω) (table key : Value) (consistent : Bool) :
    Run ω (Option Value) := do
  let native ← Item.toNative key
  let response ← client.store.send .getItem <|
    [("TableName", table), ("Key", native)] ++
      optional consistent "ConsistentRead" (.bool true)
  Item.decode (← response.get "Item")

/-- Writes one item, on conditions if any are given; tells whether the conditions held. -/
def put (client : Client ω) (table item expected : Value) : Run ω Bool := do
  let native ← Item.toNative item
  let conditions ← conditionsNamed "Expected" expected
  let request := [("TableName", table), ("Item", native)] ++ conditions
  Run.handling
    (do let _ ← client.store.send .putItem request
        return true)
    fun rejection =>
      if rejection.isConditionFailed then return false else throw (.rejected rejection)

/-- Updates one item, on conditions if any are given; nothing if the conditions did not hold. -/
def update (client : Client ω) (table key updates expected returned : Value) :
    Run ω (Option Value) := do
  if !updates.isGiven then throw .noUpdates
  let native ← Item.toNative key
  let changes ← Update.toNativeAll updates
  let conditions ← conditionsNamed "Expected" expected
  let request :=
    [("TableName", table), ("Key", native), ("AttributeUpdates", changes),
      ("ReturnValues", returned)] ++ conditions
  let response ← Run.handling
    (do return some (← client.store.send .updateItem request))
    fun rejection =>
      if rejection.isConditionFailed then return none else throw (.rejected rejection)
  match response with
  | none => return none
  | some response => Item.decode (← response.get "Attributes")

/-- Deletes one item and returns it as it was. -/
def delete (client : Client ω) (table key : Value) : Run ω (Option Value) := do
  client.store.require .deleteItem
  let native ← Item.toNative key
  let response ← client.store.send .deleteItem
    [("TableName", table), ("Key", native), ("ReturnValues", .text "ALL_OLD")]
  Item.decode (← response.get "Attributes")

def readBatch (client : Client ω) (table keys : Value) (consistent : Bool) (order : Value)
    (cancelled : Option (Run ω Bool)) : Run ω (List Value) :=
  Batch.read client.store table keys consistent order (client.control cancelled)

def writeBatch (client : Client ω) (table items : Value) (mode : Batch.Mode)
    (cancelled : Option (Run ω Bool)) : Run ω Unit :=
  Batch.write client.store table items (.text mode.name) (client.control cancelled)

/-- What a query asks for beyond its key conditions. -/
structure QueryOptions where
  index : Value
  limit : Value
  consistent : Value
  startKey : Value
  forward : Value
  filter : Value

/-- What a query asks for where nothing else is said: it is read forward, with a limit. -/
def QueryOptions.default : QueryOptions :=
  { index := .null, limit := .int 100, consistent := .null, startKey := .null
    forward := .bool true, filter := .null }

/-- A limit must be null or a number greater than zero. -/
def checkLimit (limit : Value) : Except Fault Unit := do
  if !limit.isNull then
    if ← limit.isAtMost 0 then throw .limitNotPositive

def query (client : Client ω) (table conditions : Value) (options : QueryOptions) :
    Run ω (List Value) := do
  if !conditions.isGiven then throw (.noKeyCondition "query")
  checkLimit options.limit
  let keyConditions ← Condition.toNativeAll conditions
  let start ← if options.startKey.isNull then pure []
    else do pure [("ExclusiveStartKey", ← Item.toNative options.startKey)]
  let filter ← conditionsNamed "QueryFilter" options.filter
  let response ← client.store.send .query <|
    [("TableName", table), ("KeyConditions", keyConditions),
      ("ScanIndexForward", options.forward)] ++
    sentUnlessNull "Limit" options.limit ++ sentUnlessNull "ConsistentRead" options.consistent ++
    sentUnlessNull "IndexName" options.index ++ start ++ filter
  Item.decodeAll (← (← response.getD "Items" (.list [])).elements)

/-- Adds up the counts of all pages of a query, within a bound on their number. -/
def countPages (store : Store ω) : Nat → Request → Int → Run ω Int
  | 0, _, _ => throw .outOfPatience
  | pages + 1, request, total => do
    let response ← store.send .query request
    let total := total + (← (← response.getD "Count" (.int 0)).wholeNumber)
    let last ← response.get "LastEvaluatedKey"
    if last.isGiven then
      countPages store pages (upsertField "ExclusiveStartKey" last request) total
    else return total

/-- Counts the items that meet key conditions. -/
def count (client : Client ω) (table conditions index : Value) : Run ω Int := do
  if !conditions.isGiven then throw (.noKeyCondition "count")
  let keyConditions ← Condition.toNativeAll conditions
  let request : Request :=
    [("TableName", table), ("KeyConditions", keyConditions), ("Select", .text "COUNT")] ++
      sentUnlessNull "IndexName" index
  countPages client.store (← client.store.limit) request 0

theorem put_of_malformed (client : Client ω) (table item expected : Value) (fault : Fault)
    (malformed : Item.toNative item = .error fault) (world : ω) :
    (client.put table item expected).outcome world = (.error fault, world) := by
  simp [put, malformed]

end Client

end TokenTable
