import TokenTable.Store.Basic
import TokenTable.Store.Matching

/-! # Scripted stores

A scripted store is told in advance which calls to expect and answers them in that order. Every call
is recorded, and every call uses up the oldest expectation, whether it meets it or not. Main
statements: `calls_answer` and `pending_answer`. -/

namespace TokenTable

structure Script where
  pending : List Expectation
  /-- The calls received so far, by method name. -/
  calls : List (String × Request)

namespace Script

def empty : Script := ⟨[], []⟩

def expect (script : Script) (expectation : Expectation) : Script :=
  { script with pending := script.pending ++ [expectation] }

/-- The requirement that a request asks for a table's part, unless nothing is required of it. -/
def requireTable (table required : Value) (wrap : Value → Value) :
    Except Fault Requirement := do
  if required.isNull then return .anything
  let items ← Value.single table (wrap (← required.toMaps))
  return .matching (.record [("RequestItems", items)])

/-- Keys as a request or an answer holds them. -/
def keysPart (keys : Value) : Value := .record [("Keys", keys)]

/-- The expectation of a page of keys that is answered with items and keys left over. -/
def expectedRead (table items keys unprocessed : Value) : Except Fault Expectation := do
  let requirement ← requireTable table keys keysPart
  let found ← Value.single table (← items.toMaps)
  let left ← if unprocessed.isGiven then do
      pure [("UnprocessedKeys", ← Value.single table (keysPart (← unprocessed.toMaps)))]
    else pure []
  return {
    method := .text Method.readBatch.name, requirement, refusal := .none
    response := .record (("Responses", found) :: left) }

/-- The expectation of a page of writes that is answered with requests left over. -/
def expectedWrite (table requests unprocessed : Value) : Except Fault Expectation := do
  let requirement ← requireTable table requests id
  let left ← if unprocessed.isGiven then Value.single table (← unprocessed.toMaps)
    else pure (.map [])
  return {
    method := .text Method.writeBatch.name, requirement, refusal := .none
    response := .record [("UnprocessedItems", left)] }

/-- Checks a request against a requirement. -/
def check (method : String) (request : Request) : Requirement → Except Fault Unit
  | .anything => .ok ()
  | .matching expected => do
    Matching.matchValue method (← expected.toMap) (.record request)
  | .judged judge =>
    match judge request with
    | none => .ok ()
    | some refusal => .error (.requestRefused refusal)

/-- The map that answers a call; a response that is not given is the empty map. -/
def responseOf (response : Value) : Except Fault Value :=
  if response.isGiven then response.toMap else .ok (.map [])

/-- What an expectation makes of a call. -/
def meet (expectation : Expectation) (method : String) (request : Request) :
    Except Fault Value := do
  if !expectation.method.same (.text method) then throw (.otherCall expectation.method method)
  check method request expectation.requirement
  match expectation.refusal with
  | .none => responseOf expectation.response
  | .rejection rejection => throw (.rejected rejection)
  | .other _ => throw .wrongShape

/-- Answers a call by the oldest expectation. -/
def answer (script : Script) (method : String) (request : Request) : Except Fault Value × Script :=
  let calls := script.calls ++ [(method, request)]
  match script.pending with
  | [] => (.error (.unexpectedCall method), { script with calls })
  | expectation :: later => (meet expectation method request, { pending := later, calls })

/-- The requests received by calls of one method. -/
def requestsOf (script : Script) (method : Value) : List Request :=
  (script.calls.filter fun call => method.same (.text call.1)).map (·.2)

/-- Checks that no expectation is left. -/
def assertPlayed (script : Script) : Except Fault Unit :=
  if script.pending.isEmpty then .ok () else .error (.callsPending script.pending)

def store : Store Script where
  serves _ := true
  answer method request := .ofOutcome fun script => script.answer method.name request
  patience script := script.pending.length

/-- Every call is recorded. -/
theorem calls_answer (script : Script) (method : String) (request : Request) :
    (script.answer method request).2.calls = script.calls ++ [(method, request)] := by
  unfold answer
  cases script.pending <;> rfl

/-- Every call uses up the oldest expectation. -/
theorem pending_answer (script : Script) (method : String) (request : Request) :
    (script.answer method request).2.pending = script.pending.tail := by
  unfold answer
  cases nothing : script.pending
  · simp
  · rfl

end Script

end TokenTable
