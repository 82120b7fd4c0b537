import TokenTable.Session.Command
import TokenTable.Settings

/-! # Calls by name

A session may call whatever its store has under a name: a method, a command on the script, or plain
data, which cannot be called. The name is looked up before the arguments are looked at. Main
statement: `ofName?_name`, every method is found under its name. -/

namespace TokenTable.Session

/-- What a store has under a name. -/
inductive Member where
  | method (method : Method)
  | script (command : Value → Except Fault ScriptCommand)
  | data

namespace Member

def expect (v : Value) : Except Fault ScriptCommand := do
  let arguments ← v.arguments ⟨["method"], ["expected", "response", "error"]⟩
  let expected := Value.optional arguments "expected" .null
  let error := Value.optional arguments "error" .null
  return .expect {
    method := ← Value.required arguments "method"
    requirement := if expected.isNull then .anything else .matching expected
    response := Value.optional arguments "response" .null
    refusal := if error.isNull then .none else .other error }

/-- The command that expects a page of keys. -/
def expectRead (v : Value) : Except Fault ScriptCommand := do
  let arguments ← v.arguments ⟨["table_name"], ["items", "keys", "unprocessed"]⟩
  return .expectRead (← Value.required arguments "table_name")
    (Value.optional arguments "items" (.tuple [])) (Value.optional arguments "keys" .null)
    (Value.optional arguments "unprocessed" (.tuple []))

/-- The command that expects a page of writes. -/
def expectWrite (v : Value) : Except Fault ScriptCommand := do
  let arguments ← v.arguments ⟨["table_name"], ["requests", "unprocessed"]⟩
  return .expectWrite (← Value.required arguments "table_name")
    (Value.optional arguments "requests" .null)
    (Value.optional arguments "unprocessed" (.tuple []))

def requests (v : Value) : Except Fault ScriptCommand := do
  return .requests (← Value.required (← v.arguments ⟨["method"], []⟩) "method")

def assertPlayed (v : Value) : Except Fault ScriptCommand := do
  let _ ← v.arguments ⟨[], []⟩
  return .assertPlayed

/-- What only a scripted store has under a name. -/
def ofScriptName? : String → Option Member
  | "expect" => some (.script expect)
  | "expect_batch_get" => some (.script expectRead)
  | "expect_batch_write" => some (.script expectWrite)
  | "assert_no_pending" => some (.script assertPlayed)
  | "requests" => some (.script requests)
  | "calls" => some .data
  | _ => none

/-- What only an echo store has under a name. -/
def ofEchoName? : String → Option Member
  | "table_name" | "get_pages" | "write_pages" => some .data
  | _ => none

def ofName? (echoing : Bool) (name : String) : Option Member :=
  match Method.ofName? name with
  | some found => some (.method found)
  | none => if echoing then ofEchoName? name else ofScriptName? name

theorem ofName?_name (echoing : Bool) (method : Method) :
    ofName? echoing method.name = some (.method method) := by
  simp [ofName?, Method.ofName?_name]

end Member

end TokenTable.Session
