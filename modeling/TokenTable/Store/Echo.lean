import TokenTable.Canonical
import TokenTable.Store.Basic
import TokenTable.Value.Equal
import TokenTable.Value.Slice

/-! # Echo stores

An echo store serves batches of one table and answers every page from the page itself: each key
comes back as an item with a payload made from its first value. A schedule says how many entries of
successive pages are left unprocessed. Main statement: `splitPage_int`, a page is cut in two. -/

namespace TokenTable

/-- An echo store with its schedule and the pages it received. -/
structure Echo where
  table : Value
  reverse : Bool
  canonical : Bool
  /-- How many entries of each of the next pages are left unprocessed. -/
  schedule : List Value
  readPages : List Value
  writePages : List Value

namespace Echo

/-- The echo store that named arguments describe; only the table has to be there. -/
def ofArguments (v : Value) : Except Fault Echo := do
  let arguments ← v.arguments
    ⟨["table_name"], ["reverse", "canonical", "unprocessed_per_call"]⟩
  let table ← Value.required arguments "table_name"
  let schedule ← (Value.optional arguments "unprocessed_per_call" (.tuple [])).elements
  return {
    table, schedule
    reverse := (Value.optional arguments "reverse" (.bool false)).isGiven
    canonical := (Value.optional arguments "canonical" (.bool false)).isGiven
    readPages := [], writePages := [] }

/-- The point of a page where the unprocessed entries start: a positive count is taken from the end,
a negative one leaves so many from the start processed. -/
def splitPoint (length : Nat) (count : Int) : Nat :=
  if count = 0 then length
  else if 0 < count then length - count.toNat
  else min (-count).toNat length

/-- The whole number of entries that a count other than zero stands for. A count is first turned
into a place before the end of the page, which a decimal may be too great for. -/
def wholeCount (count : Value) : Except Fault Int :=
  match count.whole? with
  | some n => .ok n
  | none =>
    match count with
    | .decimal d =>
      match d.normal with
      | .error .overflow => .error .numberTooGreat
      | _ => .error .wrongShape
    | _ => .error .wrongShape

/-- The processed and the unprocessed part of a page. A count of zero takes a page of any shape as
it is; any other count must be a whole number, and the page a sequence. -/
def splitPage (page count : Value) : Except Fault (Value × Value) := do
  if ← count.equal (.int 0) then return (page, .list [])
  let n ← wholeCount count
  let length ← page.length
  return (← page.slice 0 (splitPoint length n), ← page.slice (splitPoint length n) length)

/-- Splits a page by the next count of the schedule, in canonical form if that is asked for. -/
def split (echo : Echo) (page : Value) : Except Fault (Value × Value) := do
  let page ← if echo.canonical then TokenTable.canonical page else pure page
  splitPage page (echo.schedule.headD (.int 0))

/-- The first value of a map. -/
def firstValue (v : Value) : Except Fault Value := do
  match ← v.entries with
  | [] => throw .nothingLeft
  | (_, first) :: _ => return first

/-- The item that answers a key. -/
def itemOf (key : Value) : Except Fault Value := do
  let payload := "v" ++ (← firstValue (← firstValue key)).display
  return .map (Value.upsert (.text "payload") (.record [("S", .text payload)]) (← key.entries))

/-- A map with the given entries under a table, or the empty map if there are none. -/
def leftOver (table entries : Value) (wrap : Value → Value) : Except Fault Value :=
  if entries.isGiven then Value.single table (wrap entries) else .ok (.map [])

/-- The answer to a page of keys. -/
def readAnswer (echo : Echo) (page : Value) : Except Fault Value := do
  let (done, left) ← echo.split page
  let items ← (← done.elements).mapM itemOf
  let unprocessed ← leftOver echo.table left fun keys => .record [("Keys", keys)]
  let found ← Value.single echo.table (.list (if echo.reverse then items.reverse else items))
  return .record [("Responses", found), ("UnprocessedKeys", unprocessed)]

/-- The answer to a page of writes. -/
def writeAnswer (echo : Echo) (page : Value) : Except Fault Value := do
  let (_, left) ← echo.split page
  return .record [("UnprocessedItems", ← leftOver echo.table left id)]

/-- The part of a request for the echo store's table. -/
def requested (echo : Echo) (request : Request) : Except Fault Value := do
  (← (Value.record request).index "RequestItems").subscript echo.table

def read (echo : Echo) (request : Request) : Except Fault Value × Echo :=
  match do (← echo.requested request).index "Keys" with
  | .error fault => (.error fault, echo)
  | .ok page =>
    (echo.readAnswer page,
      { echo with schedule := echo.schedule.tail, readPages := echo.readPages ++ [page] })

def write (echo : Echo) (request : Request) : Except Fault Value × Echo :=
  match echo.requested request with
  | .error fault => (.error fault, echo)
  | .ok page =>
    (echo.writeAnswer page,
      { echo with schedule := echo.schedule.tail, writePages := echo.writePages ++ [page] })

def store : Store Echo where
  serves method := method = .readBatch || method = .writeBatch
  answer method request := .ofOutcome fun echo =>
    if method = .readBatch then echo.read request else echo.write request
  patience echo := echo.schedule.length

/-- A whole count cuts a page in two, and nothing of it is lost. -/
theorem splitPage_int (entries : List Value) (n : Int) :
    splitPage (.list entries) (.int n) =
      .ok (.list (entries.take (splitPoint entries.length n)),
        .list (entries.drop (splitPoint entries.length n))) := by
  by_cases none : n = 0
  · subst none
    simp [splitPage, splitPoint, Value.equal_int_zero, bind, Except.bind, pure, Except.pure]
  · have other : Value.equal (.int n) (.int 0) = .ok false := by
      rw [Value.equal_int_zero, decide_eq_false none]
    simp [splitPage, other, wholeCount, Value.whole?, Value.part, bind, Except.bind, pure,
      Except.pure]

end Echo

end TokenTable
