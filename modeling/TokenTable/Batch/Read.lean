import TokenTable.Batch.Pages
import TokenTable.Item
import TokenTable.Ordering
import TokenTable.Store.Basic

/-! # Reading a batch of keys

Keys are read in pages of up to a hundred. The store answers in any order, so what it returned is
put back into the order of the keys before it is decoded, and into a requested order after. Main
statement: `inKeyOrder_perm`, putting into order neither loses nor adds an item. -/

namespace TokenTable.Batch

def readPageSize : Nat := 100

/-- The position of the first mark equal to a given one, or the number of marks. -/
def position (marks : List Value) (mark : Value) : Nat := marks.findIdx fun m => m.same mark

/-- The part of a native item under some names, in the order of the names. -/
def project (names : List String) (native : Value) : Except Fault Value := do
  let fields ← names.mapM fun name => do
    if ← native.holds name then return [(name, ← native.index name)] else return []
  return .record fields.flatten

/-- Pairs a native item with the position of its key. -/
def ranked (names : List String) (marks : List Value) (native : Value) :
    Except Fault (Nat × Value) := do
  let mark ← fingerprint (← project names native)
  return (position marks mark, native)

/-- Native items in the order of their keys; items under no key go last. -/
def inKeyOrder (keys : List NativeItem) (natives : List Value) : Except Fault (List Value) :=
  match keys with
  | [] => .ok natives
  | first :: _ => do
    let names := first.map fun entry => entry.1
    let marks ← keys.mapM fun key => fingerprint key.toValue
    let pairs ← natives.mapM (ranked names marks)
    return (pairs.mergeSort fun a b => a.1 ≤ b.1).map (·.2)

/-- The decoded items of a read, in the order of the keys or in a requested order. -/
def arrange (keys : List NativeItem) (order : Value) (gathered : List Value) :
    Except Fault (List Value) := do
  let items ← Item.decodeAll (← inKeyOrder keys gathered)
  orderItems items order

def readRequest (table : Value) (consistent : Bool) (page : List Value) :
    Except Fault Request := do
  let keys := ("Keys", Value.list page) ::
    if consistent then [("ConsistentRead", .bool true)] else []
  return [("RequestItems", ← Value.single table (.record keys))]

/-- What a store's answer to a page of keys holds. -/
def readReply (table response : Value) : Except Fault Reply := do
  let responses ← response.getD "Responses" (.map [])
  let gathered ← (← responses.findD table (.list [])).elements
  let left ← response.getD "UnprocessedKeys" (.map [])
  let unprocessed ← (← left.findD table (.map [])).get "Keys"
  return { gathered, unprocessed }

/-- How a batch reports progress, waits and is cancelled. -/
structure Control (ω : Type) where
  maxRetries : Value
  pause : Option (Value → Run ω Unit)
  cancelled : Option (Run ω Bool)

/-- The caller's keys with their typed forms. -/
def typedKeys (keys : Value) : Except Fault (List (Value × NativeItem)) := do
  (← keys.elements).mapM fun key => do return (key, ← Item.encode key)

/-- How keys are read from a table: the store is asked for each page, and a batch that gives up
reports what it gathered in the order of the keys. -/
def readPlan {ω : Type} (store : Store ω) (table : Value) (consistent : Bool)
    (natives : List NativeItem) (order : Value) (retries : Nat) (control : Control ω) : Plan ω where
  operation := "batch_get"
  submit page := do
    let response ← store.send .readBatch (← readRequest table consistent page)
    readReply table response
  restore := Item.toTokens
  report := arrange natives order
  retries := retries
  pause := control.pause
  cancelled := control.cancelled

def keyEntry (pair : Value × NativeItem) : Entry := ⟨pair.1, pair.2.toValue⟩

/-- Reads the items under a batch of keys. -/
def read {ω : Type} (store : Store ω) (table keys : Value) (consistent : Bool) (order : Value)
    (control : Control ω) : Run ω (List Value) := do
  if !keys.isGiven then throw (.emptyBatch "batch_get")
  let _ ← Order.ofValue order
  let pairs ← typedKeys keys
  let natives := pairs.map (·.2)
  let retries ← retriesOf (← store.limit) control.maxRetries
  let plan := readPlan store table consistent natives order retries control
  let gathered ← plan.carryOut readPageSize (pairs.map keyEntry)
  arrange natives order gathered

theorem native_of_ranked (names : List String) (marks : List Value) (native : Value)
    (pair : Nat × Value) (single : ranked names marks native = .ok pair) : pair.2 = native := by
  obtain ⟨_, _, single⟩ := (bind_eq_ok_iff _ _ _).mp single
  obtain ⟨_, _, single⟩ := (bind_eq_ok_iff _ _ _).mp single
  cases single
  rfl

theorem natives_of_ranked (names : List String) (marks natives : List Value)
    (pairs : List (Nat × Value))
    (ranks : natives.mapM (ranked names marks) = .ok pairs) : pairs.map (·.2) = natives := by
  induction natives generalizing pairs with
  | nil =>
    rw [(mapM_nil_eq_ok_iff _ _).mp ranks]
    rfl
  | cons native rest ih =>
    obtain ⟨pair, others, single, several, same⟩ := (mapM_cons_eq_ok_iff _ _ _ _).mp ranks
    rw [← same, List.map_cons, native_of_ranked _ _ _ _ single, ih others several]

/-- Putting natives into the order of their keys neither loses nor adds one. -/
theorem inKeyOrder_perm (keys : List NativeItem) (natives ordered : List Value)
    (sorted : inKeyOrder keys natives = .ok ordered) : ordered.Perm natives := by
  cases keys with
  | nil =>
    cases sorted
    exact List.Perm.refl _
  | cons first rest =>
    obtain ⟨marks, _, sorted⟩ := (bind_eq_ok_iff _ _ _).mp sorted
    obtain ⟨pairs, ranks, sorted⟩ := (bind_eq_ok_iff _ _ _).mp sorted
    cases sorted
    rw [← natives_of_ranked _ _ natives pairs ranks]
    exact (List.mergeSort_perm pairs _).map _

end TokenTable.Batch
