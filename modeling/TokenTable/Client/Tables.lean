import TokenTable.Client.Basic
import TokenTable.Client.Layout

/-! # Client operations on tables

Tables are created and deleted, and the client may wait until the store has done so. A wait asks
the store again and again, pausing between, until the answer is decisive or the time is over. Main
statement: `poll_late`, after the deadline the store is not asked any more. -/

namespace TokenTable.Client

variable {ω : Type}

def describe (client : Client ω) (table : Value) : Run ω Value :=
  client.store.send .describeTable [("TableName", table)]

def tableExists (client : Client ω) (table : Value) : Run ω Bool :=
  Run.handling
    (do let _ ← client.describe table
        return true)
    fun rejection =>
      if rejection.isTableMissing then return false else throw (.rejected rejection)

/-- Pauses between two questions, if the client can pause. -/
def rest (client : Client ω) : Run ω Unit :=
  match client.pause with
  | none => pure ()
  | some pause => pause client.pollInterval

/-- Asks until the answer is decisive, pausing between; after the deadline the wait has failed. The
first argument bounds the number of questions. -/
def poll (client : Client ω) (decisive : Run ω Bool) (late : Fault) (deadline : Binary64) :
    Nat → Run ω Unit
  | 0 => throw .outOfPatience
  | questions + 1 => do
    if !(client.clock (← Run.world)).below deadline then throw late
    if ← decisive then return
    client.rest
    client.poll decisive late deadline questions

def await (client : Client ω) (decisive : Run ω Bool) (late : Fault) : Run ω Unit := do
  let timeout ← client.waitTimeout.toBinary64
  let deadline := (client.clock (← Run.world)).add timeout
  client.poll decisive late deadline (← client.store.limit)

/-- The status of a table in its description; a missing status is empty. -/
def statusOf (description : Value) : Except Fault String := do
  let table ← description.getD "Table" (.map [])
  return (← table.getD "TableStatus" (.text "")).display

/-- Whether a table may be used; a table that does not exist yet may not. -/
def isActive (client : Client ω) (table : Value) : Run ω Bool := do
  let description ← Run.handling (client.describe table) fun rejection =>
    if rejection.isTableMissing then return .map [] else throw (.rejected rejection)
  return (← statusOf description) == "ACTIVE"

/-- Waits until a table may be used. -/
def awaitActive (client : Client ω) (table : Value) : Run ω Unit :=
  client.await (client.isActive table) (.tableNeverActive table)

/-- Waits until a table does not exist any more. -/
def awaitDeleted (client : Client ω) (table : Value) : Run ω Unit :=
  client.await (do return !(← client.tableExists table)) (.tableNeverDeleted table)

/-- Creates a table; one that is already in use is kept. -/
def createTable (client : Client ω) (layout : Layout) (wait : Bool) : Run ω Unit := do
  let request ← layout.request
  Run.handling
    (do let _ ← client.store.send .createTable request)
    fun rejection =>
      if rejection.code == Rejection.tableInUse then return else throw (.rejected rejection)
  if wait then client.awaitActive layout.table

/-- Deletes a table; one that does not exist is a fault unless it is to be ignored. -/
def deleteTable (client : Client ω) (table : Value) (wait ignoreMissing : Bool) :
    Run ω Unit := do
  let deleted ← Run.handling
    (do let _ ← client.store.send .deleteTable [("TableName", table)]
        return true)
    fun rejection =>
      if ignoreMissing && rejection.isTableMissing then return false
      else throw (.rejected rejection)
  if deleted && wait then client.awaitDeleted table

/-- The names of a table's key attributes in its description. -/
def keyNames (description : Value) : Except Fault (List String) := do
  let table ← description.getD "Table" (.map [])
  let schema ← (← table.getD "KeySchema" (.list [])).elements
  schema.mapM fun part => do return (← part.index "AttributeName").display

/-- The part of a native item under the key attributes, all of which must be there. -/
def keyOf (names : List String) (native : Value) : Except Fault Value := do
  let fields ← names.mapM fun name => do return (name, ← native.index name)
  return .record (fields.foldl (fun done field => upsertField field.1 field.2 done) [])

/-- The keys of all items of a table, within a bound on the number of pages. -/
def gatherKeys (store : Store ω) (names : List String) : Nat → Request → Run ω (List Value)
  | 0, _ => throw .outOfPatience
  | pages + 1, request => do
    let response ← store.send .scan request
    let natives ← (← response.getD "Items" (.list [])).elements
    let keys ← natives.mapM (m := Except Fault) (keyOf names)
    let last ← response.get "LastEvaluatedKey"
    if last.isGiven then
      return keys ++ (← gatherKeys store names pages
        (upsertField "ExclusiveStartKey" last request))
    else return keys

/-- The placeholders of the key attributes in a projection, with their names. -/
def placeholders (names : List String) : List (String × Value) :=
  names.zipIdx.map fun entry => ("#k" ++ toString entry.2, .text entry.1)

/-- Deletes every item of a table; the result is their number. -/
def emptyTable (client : Client ω) (table : Value) : Run ω Nat := do
  let names ← keyNames (← client.describe table)
  if names.isEmpty then throw (.noKeySchema table)
  let held := placeholders names
  let keys ← gatherKeys client.store names (← client.store.limit)
    [("TableName", table),
      ("ProjectionExpression", .text (Value.joined ", " (held.map (·.1)))),
      ("ExpressionAttributeNames", .record held)]
  Batch.deleteNative client.store table keys (client.control none)

/-- After the deadline the store is not asked any more. -/
theorem poll_late (client : Client ω) (decisive : Run ω Bool) (late : Fault) (deadline : Binary64)
    (questions : Nat) (world : ω) (passed : (client.clock world).below deadline = false) :
    (client.poll decisive late deadline (questions + 1)).outcome world = (.error late, world) := by
  simp [poll, passed]

end TokenTable.Client
