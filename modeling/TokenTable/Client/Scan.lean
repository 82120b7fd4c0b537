import TokenTable.Client.Basic

/-! # Scanning a table

A scan hands out the items of a table one at a time and asks the store for a page only when the
items it already has are used up. A limit counts the native items of all pages, also those that
carry no item; an item that was handed out is counted when the next one is asked for. Main
statements: `next_of_finished`, a finished scan neither hands out anything nor asks, and
`use_int`. -/

namespace TokenTable

/-- Where a scan stands. -/
inductive Scan.Stage where
  /-- The next page has to be asked for. -/
  | asking
  /-- Native items are left of a page, which tells where the next page starts. -/
  | reading (natives : List Value) (resume : Value)
  /-- The same after an item was handed out that is not counted yet. -/
  | handed (natives : List Value) (resume : Value)
  | finished

structure Scan where
  request : Request
  /-- How many more native items may be used; null stands for any number. -/
  remaining : Value
  stage : Scan.Stage

namespace Scan

variable {ω : Type}

def start (request : Request) (limit : Value) : Scan :=
  { request, remaining := limit, stage := .asking }

def finish (scan : Scan) : Scan := { scan with stage := .finished }

def isFinished (scan : Scan) : Bool :=
  match scan.stage with
  | .finished => true
  | _ => false

/-- The scan after a page is used up: it goes on where the page says. -/
def turnPage (scan : Scan) (resume : Value) : Scan :=
  if resume.isGiven then
    { scan with
      request := upsertField "ExclusiveStartKey" resume scan.request
      stage := .asking }
  else scan.finish

/-- The scan after one more native item is counted, with some left of the page. -/
def use (scan : Scan) (rest : List Value) (resume : Value) : Except Fault Scan := do
  if scan.remaining.isNull then return { scan with stage := .reading rest resume }
  let remaining ← scan.remaining.minusOne
  if ← remaining.isAtMost 0 then return scan.finish
  return { scan with remaining, stage := .reading rest resume }

/-- Hands out the next item of the page at hand; natives that carry none are counted at once. -/
def take (scan : Scan) (resume : Value) : List Value → Except Fault (Option Value × Scan)
  | [] => .ok (none, scan.turnPage resume)
  | native :: rest => do
    match ← Item.decode native with
    | some item => return (some item, { scan with stage := .handed rest resume })
    | none =>
      let after ← scan.use rest resume
      if after.isFinished then return (none, after)
      after.take resume rest

def pageRequest (scan : Scan) : Request :=
  if scan.remaining.isNull then scan.request
  else upsertField "Limit" scan.remaining scan.request

def ask (scan : Scan) (store : Store ω) : Run ω Scan := do
  let request := scan.pageRequest
  let response ← store.send .scan request
  let natives ← (← response.getD "Items" (.list [])).elements
  let resume ← response.get "LastEvaluatedKey"
  return { scan with request, stage := .reading natives resume }

/-- Hands out what is at hand, without asking the store. -/
def step (scan : Scan) : Except Fault (Option Value × Scan) :=
  match scan.stage with
  | .reading natives resume => scan.take resume natives
  | .handed rest resume => do
    let after ← scan.use rest resume
    if after.isFinished then return (none, after)
    after.take resume rest
  | _ => .ok (none, scan)

/-- Hands out the next item, within a bound on the number of pages asked for. -/
def next (scan : Scan) (store : Store ω) (pages : Nat) : Run ω (Option Value × Scan) := do
  let (item, after) ← scan.step
  if item.isSome || after.isFinished then return (item, after)
  match pages with
  | 0 => throw .outOfPatience
  | pages + 1 => (← after.ask store).next store pages

/-- A whole number of items that is left goes down by one, and the scan ends at zero. -/
theorem use_int (scan : Scan) (rest : List Value) (resume : Value) (n : Int)
    (left : scan.remaining = .int n) :
    scan.use rest resume =
      .ok (if n ≤ 1 then scan.finish
        else { scan with remaining := .int (n - 1), stage := .reading rest resume }) := by
  have least : n - 1 ≤ 0 ↔ n ≤ 1 := by omega
  simp only [use, left, Value.isNull, Value.minusOne_int, Value.isAtMost_int, least, bind,
    Except.bind, pure, Except.pure]
  by_cases last : n ≤ 1 <;> simp [last]

theorem next_of_finished (store : Store ω) (pages : Nat) (scan : Scan)
    (done : scan.stage = .finished) (world : ω) :
    (scan.next store pages).outcome world = (.ok (none, scan), world) := by
  unfold next
  simp [step, done, isFinished]

end Scan

namespace Client

variable {ω : Type}

/-- Begins a scan; the store is not asked yet. -/
def scan (table filter limit : Value) : Except Fault Scan := do
  checkLimit limit
  let conditions ← conditionsNamed "ScanFilter" filter
  return .start (("TableName", table) :: conditions) limit

end Client

end TokenTable
