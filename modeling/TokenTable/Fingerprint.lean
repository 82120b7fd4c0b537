import TokenTable.Number.Decimal.Normal
import TokenTable.Value.Numeric
import TokenTable.Value.Access
import TokenTable.Value.Sorted

/-! # Fingerprints of native maps

A store may spell a number differently and may return a set's elements in any order. A fingerprint
forgets both: number texts are brought to normal form, the elements of sets and the entries of maps
are sorted. Two native maps are the same entry when their fingerprints are. Main statements:
`numberMark_of_not_numeric` and `fingerprint_of_not_map`. -/

namespace TokenTable

/-- A number in its normal spelling; what is no number stays as it is. A number among whose parts
one is beyond a machine word has no mark. -/
def numberMark (v : Value) : Except Fault Value :=
  match v.toDecimal with
  | .error .outOfRange => .error .outOfRange
  | .error _ => .ok v
  | .ok d =>
    match d.normal with
    | .ok n => .ok (.text n.toText)
    | .error .invalid => .ok v
    | .error .overflow => .error .numberTooGreat

/-- The mark of a payload, which depends on the tag above it. -/
def payloadMark : Value → Value → Except Fault Value
  | .text "N", v => numberMark v
  | .text "NS", .list items => return .tuple (← Value.sorted (← items.mapM numberMark))
  | .text "SS", .list items | .text "BS", .list items => return .tuple (← Value.sorted items)
  | _, .list items => .ok (.tuple items)
  | _, v => .ok v

/-- The marks of a map's entries in the order of their names, as one value. -/
def sortMarks (marks : List (Value × Value)) : Except Fault Value := do
  let ordered ← Value.sortOn (·.1) marks
  return .tuple (ordered.map fun mark => .tuple [mark.1, mark.2])

mutual

def markOf (name : Value) : Value → Except Fault Value
  | .map entries => do sortMarks (← entryMarks entries)
  | v => payloadMark name v
termination_by structural v => v

def entryMarks : List (Value × Value) → Except Fault (List (Value × Value))
  | [] => .ok []
  | (name, v) :: rest => do
    let mark ← markOf name v
    return (name, mark) :: (← entryMarks rest)
termination_by structural entries => entries

end

/-- The fingerprint of a native map. A payload that may not be a key of a map has none. -/
def fingerprint : Value → Except Fault Value
  | .map entries => do
    let mark ← sortMarks (← entryMarks entries)
    if mark.isKey then return mark else throw .wrongShape
  | _ => .error .noSuchMember

theorem numberMark_of_not_numeric (s : String) (other : Decimal.read? s = none) :
    numberMark (.text s) = .ok (.text s) := by
  simp [numberMark, Value.toDecimal, Value.number?, other]

theorem fingerprint_of_not_map (s : String) : fingerprint (.text s) = .error .noSuchMember := rfl

end TokenTable
