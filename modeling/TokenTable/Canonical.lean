import TokenTable.Number.Decimal.Normal
import TokenTable.Number.Decimal.Printer
import TokenTable.Value.Numeric

/-! # Numbers as a store echoes them

A store returns numbers in plain normal form: `1.0` comes back as `1`. The rewriting goes through
maps and lists and touches number payloads only. Main statement: `canonical_text`, a text by itself
is kept. -/

namespace TokenTable

def plainNumber (v : Value) : Except Fault Value := do
  match (← v.toDecimal).normal with
  | .ok n => return .text n.toPlain
  | .error .invalid => throw .notNumeric
  | .error .overflow => throw .numberTooGreat

mutual

/-- A native value with its numbers in plain normal form. -/
def canonical : Value → Except Fault Value
  | .map entries => return .map (← canonicalEntries entries)
  | .list items => return .list (← canonicalList items)
  | v => .ok v
termination_by structural v => v

def canonicalList : List Value → Except Fault (List Value)
  | [] => .ok []
  | v :: rest => do
    let first ← canonical v
    return first :: (← canonicalList rest)
termination_by structural vs => vs

/-- The entries of a map with their numbers in plain normal form; a number stands under the number
tag as a text, or in a list under the number set tag. -/
def canonicalEntries : List (Value × Value) → Except Fault (List (Value × Value))
  | [] => .ok []
  | (.text "N", .text s) :: rest => do
    let number ← plainNumber (.text s)
    return (.text "N", number) :: (← canonicalEntries rest)
  | (.text "NS", .list items) :: rest => do
    let numbers ← items.mapM plainNumber
    return (.text "NS", .list numbers) :: (← canonicalEntries rest)
  | (k, v) :: rest => do
    let value ← canonical v
    return (k, value) :: (← canonicalEntries rest)
termination_by structural entries => entries

end

theorem canonical_text (s : String) : canonical (.text s) = .ok (.text s) := rfl

end TokenTable
