import TokenTable.Value.Access

/-! # Reading rejections

A store reports a rejection as a map with the code and the message under one name, and how often it
retried under another. A rehearsal makes one up from a code. Main statement: `ofResponse_empty`, a
response may leave all of it out. -/

namespace TokenTable.Rejection

/-- The value of a map under a name, if it is there. -/
def field? (v : Value) (name : String) : Except Fault (Option Value) :=
  return Value.lookup? (← v.entries) (.text name)

/-- The number of retries, where a response says that they were used up. -/
def retriesOf (response : Value) : Except Fault (Option Value) := do
  if ← response.holds "ResponseMetadata" then
    let metadata ← response.index "ResponseMetadata"
    if (← metadata.getD "MaxAttemptsReached" (.bool false)).isGiven then
      field? metadata "RetryAttempts"
    else return none
  else return none

/-- The rejection that a response reports. -/
def ofResponse (response operation : Value) : Except Fault Rejection := do
  let retries? ← retriesOf response
  let error ← response.getD "Error" (.map [])
  return { operation, retries?, code? := ← field? error "Code"
           message? := ← field? error "Message" }

/-- The rejection that named arguments make up: a code, a message and an operation, of which only
the code has to be there. -/
def ofArguments (v : Value) : Except Fault Rejection := do
  let arguments ← v.arguments ⟨["code"], ["message", "operation"]⟩
  let code ← Value.required arguments "code"
  return ofCode code (Value.optional arguments "message" (.text ""))
    (Value.optional arguments "operation" (.text "DynamoDB"))

theorem ofResponse_empty (operation : Value) :
    ofResponse (.map []) operation =
      .ok { operation, code? := none, message? := none, retries? := none } := rfl

end TokenTable.Rejection
