import TokenTable.Rejection

/-! # Expected calls

A scripted store is told in advance which calls will come, what their requests must hold, and how
to answer them. -/

namespace TokenTable

/-- What the request of an expected call must satisfy. -/
inductive Requirement where
  | anything
  /-- The request must hold this value's entries. -/
  | matching (expected : Value)
  /-- A judge looks at the request, and may refuse it with a text. -/
  | judged (judge : List (String × Value) → Option String)
deriving Inhabited

/-- The requirement that every request passes, or that none does and the refusal is a text. -/
def Requirement.verdict (refusal : Option String) : Requirement := .judged fun _ => refusal

/-- What a script has in place of an answer. -/
inductive Refusal where
  | none
  | rejection (rejection : Rejection)
  /-- A value that is no rejection, and cannot be raised. -/
  | other (value : Value)

/-- One expected call of a script. -/
structure Expectation where
  /-- The name of the method that must be called. -/
  method : Value
  requirement : Requirement
  response : Value
  refusal : Refusal

namespace Expectation

def requirementText : Requirement → String
  | .anything => "None"
  | .matching expected => expected.written
  | .judged _ => "<check>"

def refusalText : Refusal → String
  | .none => "None"
  | .rejection r => "ClientError(" ++ Text.quote r.message ++ ")"
  | .other v => v.written

def written (e : Expectation) : String :=
  "ExpectedCall(method=" ++ e.method.written ++ ", expected=" ++ requirementText e.requirement ++
    ", response=" ++ e.response.written ++ ", error=" ++ refusalText e.refusal ++ ")"

/-- The written form of the calls that are still expected. -/
def listing (pending : List Expectation) : String :=
  "[" ++ Value.joined ", " (pending.map written) ++ "]"

end Expectation

end TokenTable
