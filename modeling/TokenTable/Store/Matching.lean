import TokenTable.Value.Access
import TokenTable.Value.Equal

/-! # Matching requests

An expected request need not tell everything: a wildcard matches any value, a map matches every map
that holds its entries, a list matches position by position, and other values match what they equal.
The path to a value that does not match is reported. Main statement: `matches_wildcard`. -/

namespace TokenTable.Matching

/-- The path to the value under a key of a map. -/
def underKey (path : String) (key : Value) : String := path ++ "." ++ key.display

/-- The path to a position of a list. -/
def atPosition (path : String) (position : Nat) : String :=
  path ++ "[" ++ toString position ++ "]"

/-- Matches values that are compared as a whole. -/
def matchLeaf (path : String) (expected actual : Value) : Except Fault Unit := do
  if !(← expected.equal actual) then throw (.valueDiffers path expected actual)

mutual

/-- Matches a value with an expected one; the first difference is the fault. -/
def matchValue (path : String) : Value → Value → Except Fault Unit
  | .wildcard, _ => .ok ()
  | .map expected, .map actual => matchEntries path actual expected
  | .map _, actual => .error (.mapExpected path actual.shapeName)
  | .list expected, .list actual =>
    if expected.length = actual.length then matchItems path 0 expected actual
    else .error (.lengthDiffers path expected.length actual.length)
  | .list _, actual => .error (.listExpected path actual.shapeName)
  | expected, actual => matchLeaf path expected actual
termination_by structural expected => expected

/-- Matches a map with expected entries. -/
def matchEntries (path : String) (actual : Value.Entries) :
    List (Value × Value) → Except Fault Unit
  | [] => .ok ()
  | (key, expected) :: rest =>
    match Value.lookup? actual key with
    | none => .error (.keyMissing path key)
    | some found => do
      matchValue (underKey path key) expected found
      matchEntries path actual rest
termination_by structural expected => expected

def matchItems (path : String) (position : Nat) : List Value → List Value → Except Fault Unit
  | expected :: rest, actual :: rest' => do
    matchValue (atPosition path position) expected actual
    matchItems path (position + 1) rest rest'
  | _, _ => .ok ()
termination_by structural expected => expected

end

/-- A wildcard matches any value. -/
theorem matches_wildcard (path : String) (actual : Value) :
    matchValue path .wildcard actual = .ok () := by
  cases actual <;> rfl

end TokenTable.Matching
