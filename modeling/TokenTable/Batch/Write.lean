import TokenTable.Batch.Read

/-! # Writing a batch of items

Items are put, or the items under keys deleted, in pages of up to twenty-five requests. A request
wraps the native form of what the caller gave. Main statement: `Mode.ofValue_name`. -/

namespace TokenTable.Batch

def writePageSize : Nat := 25

/-- What a batch of writes does. -/
inductive Mode where
  | put
  | delete
deriving DecidableEq, Repr

namespace Mode

def name : Mode → String
  | .put => "put"
  | .delete => "delete"

def ofValue : Value → Except Fault Mode
  | .text "put" => .ok .put
  | .text "delete" => .ok .delete
  | v => .error (.unknownMode v)

def operation (mode : Mode) : String := "batch_" ++ mode.name

/-- The request that writes one native item or deletes under one native key. -/
def request (mode : Mode) (native : Value) : Value :=
  match mode with
  | .put => .record [("PutRequest", .record [("Item", native)])]
  | .delete => .record [("DeleteRequest", .record [("Key", native)])]

theorem ofValue_name (mode : Mode) : ofValue (.text mode.name) = .ok mode := by
  cases mode <;> rfl

end Mode

/-- The first native item or key among the bodies of a write request. -/
def firstBody? : List Value → Except Fault (Option Value)
  | [] => .ok none
  | body :: rest => do
    match ← body.entries with
    | [] => firstBody? rest
    | (_, native) :: _ => return some native

/-- The caller's spelling of a write request that only the store knows. -/
def restoreRequest (request : Value) : Except Fault Value := do
  match ← firstBody? ((← request.entries).map (·.2)) with
  | some native => Item.toTokens native
  | none => return .map []

/-- What a store's answer to a page of writes holds. -/
def writeReply (table response : Value) : Except Fault Reply := do
  let left ← response.getD "UnprocessedItems" (.map [])
  return { gathered := [], unprocessed := ← left.findD table (.list []) }

def writeRequest (table : Value) (page : List Value) : Except Fault Request :=
  return [("RequestItems", ← Value.single table (.list page))]

/-- How write requests are sent to a table: the store is given each page, and nothing is
gathered. -/
def writePlan {ω : Type} (store : Store ω) (table : Value) (operation : String) (retries : Nat)
    (control : Control ω) : Plan ω where
  operation := operation
  submit page := do
    let response ← store.send .writeBatch (← writeRequest table page)
    writeReply table response
  restore := restoreRequest
  report _ := .ok []
  retries := retries
  pause := control.pause
  cancelled := control.cancelled

def writeEntries {ω : Type} (store : Store ω) (table : Value) (operation : String)
    (entries : List Entry) (control : Control ω) : Run ω Unit := do
  let retries ← retriesOf (← store.limit) control.maxRetries
  let _ ← (writePlan store table operation retries control).carryOut writePageSize entries

/-- The entries of items to write or of keys to delete under. -/
def entriesOf (mode : Mode) (items : Value) : Except Fault (List Entry) := do
  (← items.elements).mapM fun item => do
    return { source := item, native := mode.request (← Item.toNative item) }

/-- Writes a batch of items, or deletes under a batch of keys. -/
def write {ω : Type} (store : Store ω) (table items mode : Value) (control : Control ω) :
    Run ω Unit := do
  let mode ← Mode.ofValue mode
  if !items.isGiven then throw (.emptyBatch mode.operation)
  let entries ← entriesOf mode items
  writeEntries store table mode.operation entries control

def deleteEntries (keys : List Value) : Except Fault (List Entry) :=
  keys.mapM fun key => do
    return { source := ← Item.toTokens key, native := Mode.delete.request key }

/-- Deletes under native keys; the result is their number. -/
def deleteNative {ω : Type} (store : Store ω) (table : Value) (keys : List Value)
    (control : Control ω) : Run ω Nat := do
  let entries ← deleteEntries keys
  if !entries.isEmpty then
    writeEntries store table Mode.delete.operation entries control
  return entries.length

end TokenTable.Batch
