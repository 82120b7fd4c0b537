import TokenTable.Value.Same
import TokenTable.Value.Written

/-! # Rejections by a store

A store that refuses a call answers with a code and a message, either of which may be missing.
Main statement: `message_ofCode`, what a scripted rejection reads like. -/

namespace TokenTable

/-- A store's refusal of a call. -/
structure Rejection where
  /-- The name of the refused operation. -/
  operation : Value
  code? : Option Value
  message? : Option Value
  /-- How often the call was retried before it was given up. -/
  retries? : Option Value

namespace Rejection

/-- The code of a failed condition. -/
def conditionFailed : String := "ConditionalCheckFailedException"

def tableMissing : String := "ResourceNotFoundException"

def tableInUse : String := "ResourceInUseException"

/-- A rejection with a code; an empty message is replaced by the code. -/
def ofCode (code message operation : Value) : Rejection :=
  { operation, code? := some code, retries? := none
    message? := some (if message.isGiven then message else code) }

/-- The code as a text; a missing code is empty. -/
def code (r : Rejection) : String := (r.code?.map Value.display).getD ""

def message (r : Rejection) : String :=
  let shown := fun part : Option Value => (part.map Value.display).getD "Unknown"
  let retried := match r.retries? with
    | some n => " (reached max retries: " ++ n.display ++ ")"
    | none => ""
  "An error occurred (" ++ shown r.code? ++ ") when calling the " ++ r.operation.display ++
    " operation" ++ retried ++ ": " ++ shown r.message?

/-- The store's own message, or the whole message where it gave none. -/
def text (r : Rejection) : String :=
  let own := (r.message?.map Value.display).getD ""
  if own = "" then r.message else own

/-- Whether the condition of a write failed. -/
def isConditionFailed (r : Rejection) : Bool := r.code == conditionFailed

/-- Whether the table does not exist. -/
def isTableMissing (r : Rejection) : Bool := r.code == tableMissing

theorem message_ofCode (code operation : String) :
    (ofCode (.text code) (.text "") (.text operation)).message =
      "An error occurred (" ++ code ++ ") when calling the " ++ operation ++ " operation" ++ "" ++
        ": " ++ code := rfl

end Rejection

end TokenTable
