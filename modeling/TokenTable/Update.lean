import TokenTable.Attribute
import TokenTable.Clause
import TokenTable.Fields

/-! # Updates

An update puts a value, adds to one, or deletes. A bare value is put; otherwise a tuple names the
action. Main statement: `Action.ofName?_name`. -/

namespace TokenTable

inductive Action where
  | put
  | add
  | delete
deriving DecidableEq, Repr

namespace Action

def name : Action → String
  | .put => "PUT"
  | .add => "ADD"
  | .delete => "DELETE"

def ofName? (name : String) : Option Action := [put, add, delete].find? (·.name == name)

theorem ofName?_name (action : Action) : ofName? action.name = some action := by
  cases action <;> decide

end Action

/-- An action with its typed value; only a deletion may go without. -/
structure Update where
  action : Action
  value : Option Attribute
deriving Repr

namespace Update

def toNative (update : Update) : Value :=
  .record <| ("Action", .text update.action.name) ::
    match update.value with
    | none => []
    | some value => [("Value", value.toNative)]

/-- Builds the update of an action name and a value. -/
def ofClause (text : String) (kind : Kind) (clause : Clause) : Except Fault Update :=
  match Action.ofName? clause.word with
  | none => .error (.unknownAction text clause.word)
  | some action =>
    if clause.value.isNull then
      if action = .delete then .ok ⟨action, none⟩
      else .error (.updateValueRequired text action.name)
    else return ⟨action, some (← Attribute.encode clause.value kind)⟩

def malformed (text : String) : Clause.Malformed → Fault
  | .shape => .updateShape text
  | .wordNotText => .actionNotText text

/-- The attribute's name and the typed update of a token and its clause. -/
def ofEntry (token clause : Value) : Except Fault (String × Update) := do
  let parsed ← Token.parse false token
  let split ← (Clause.split Action.put.name clause).mapError (malformed token.display)
  return (parsed.name, ← ofClause token.display parsed.kind split)

/-- The typed updates of a map by name; of two for one attribute the later takes the earlier's
place. -/
def ofEntries (updates : Value) : Except Fault (List (String × Update)) := do
  (← updates.entries).foldlM (fun done entry => do
    let (name, update) ← ofEntry entry.1 entry.2
    return upsertField name update done) []

def toNativeAll (updates : Value) : Except Fault Value :=
  return .record ((← ofEntries updates).map fun entry => (entry.1, entry.2.toNative))

end Update

end TokenTable
