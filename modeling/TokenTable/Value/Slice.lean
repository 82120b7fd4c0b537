import TokenTable.Fallible
import TokenTable.Value.Access
import TokenTable.Value.Numeric

/-! # Sequences by position

Lists, tuples, texts and byte strings have members by position, counted from the start or, with a
negative number, from the end; a slice of one has its shape. Sets and maps have a length only. Main
statements: `slice_list` and `length_list`. -/

namespace TokenTable.Value

def length : Value → Except Fault Nat
  | .list items | .tuple items | .set _ items => .ok items.length
  | .map entries => .ok entries.length
  | .text s => .ok s.length
  | .bytes _ content => .ok content.length
  | _ => .error .wrongShape

/-- The members from one position up to another. -/
def part {α : Type} (first last : Nat) (items : List α) : List α := (items.take last).drop first

def slice (first last : Nat) : Value → Except Fault Value
  | .list items => .ok (.list (part first last items))
  | .tuple items => .ok (.tuple (part first last items))
  | .text s => .ok (.text (String.ofList (part first last s.toList)))
  | .bytes form content => .ok (.bytes form (part first last content))
  | _ => .error .wrongShape

/-- The position that a number names among so many; negative numbers count from the end. -/
def position (length : Nat) (n : Int) : Except Fault Nat :=
  let place := if n < 0 then n + length else n
  if 0 ≤ place && place < length then .ok place.toNat else .error .noSuchPlace

/-- Whether the value has members by position. -/
def isSequence : Value → Bool
  | .list _ | .tuple _ | .text _ | .bytes .. => true
  | _ => false

/-- The member of a sequence at the position that a value names. -/
def atPosition (v key : Value) : Except Fault Value :=
  match key.whole? with
  | some n =>
    if v.isSequence then do
      let members ← v.elements
      return members.getD (← position members.length n) .null
    else .error .wrongShape
  | none => .error .wrongShape

/-- The value under a key: of a map any key, of a sequence a position. -/
def subscript (v key : Value) : Except Fault Value :=
  match v with
  | .map entries =>
    if key.isKey then ((lookup? entries key).map .ok).getD (.error .noSuchKey)
    else .error .wrongShape
  | v => v.atPosition key

@[simp] theorem length_list (items : List Value) : length (.list items) = .ok items.length := rfl

@[simp] theorem slice_list (first last : Nat) (items : List Value) :
    slice first last (.list items) = .ok (.list (part first last items)) := rfl

end TokenTable.Value
