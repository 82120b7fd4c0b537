import TokenTable.Number.Binary64.Basic

/-! # Values

Applications hand in, and stores hand back, values of many shapes: numbers of three kinds, texts,
byte strings, and collections of these. A map keeps its entries in order and may have keys of any
shape. Main statement: `isGiven_record`, a record counts as given exactly when it has a field. -/

namespace TokenTable

inductive BytesForm where
  | plain
  | growable
  | view
deriving DecidableEq, Repr, Inhabited

/-- A value as an application or a store writes it. -/
inductive Value where
  | null
  | bool (b : Bool)
  | int (n : Int)
  | float (x : Binary64)
  | decimal (d : Decimal)
  | text (s : String)
  | bytes (form : BytesForm) (content : List UInt8)
  | list (items : List Value)
  | tuple (items : List Value)
  | set (frozen : Bool) (members : List Value)
  | map (entries : List (Value × Value))
  /-- Stands for any value where an expected request is written down. -/
  | wildcard
deriving Repr, Inhabited

namespace Value

/-- The entries of a map, in order. -/
abbrev Entries := List (Value × Value)

/-- A map whose keys are texts. -/
def record (fields : List (String × Value)) : Value :=
  .map (fields.map fun field => (.text field.1, field.2))

/-- The name of a value's shape, as messages show it. -/
def shapeName : Value → String
  | .null => "NoneType"
  | .bool _ => "bool"
  | .int _ => "int"
  | .float _ => "float"
  | .decimal _ => "Decimal"
  | .text _ => "str"
  | .bytes .plain _ => "bytes"
  | .bytes .growable _ => "bytearray"
  | .bytes .view _ => "memoryview"
  | .list _ => "list"
  | .tuple _ => "tuple"
  | .set false _ => "set"
  | .set true _ => "frozenset"
  | .map _ => "dict"
  | .wildcard => "_AnySentinel"

def isNull : Value → Bool
  | .null => true
  | _ => false

def isCollection : Value → Bool
  | .list _ | .tuple _ | .set _ _ => true
  | _ => false

/-- Whether an optional value counts as given: it is not null, false, zero or empty. -/
def isGiven : Value → Bool
  | .null => false
  | .bool b => b
  | .int n => n != 0
  | .float x => !x.isZero
  | .decimal d => !d.isZero
  | .text s => s != ""
  | .bytes _ content => !content.isEmpty
  | .list items | .tuple items | .set _ items => !items.isEmpty
  | .map entries => !entries.isEmpty
  | .wildcard => true

/-- The number that a numeric value stands for; truth values count as one and zero. -/
def number? : Value → Option Decimal
  | .bool b => some (.ofInt b.toInt)
  | .int n => some (.ofInt n)
  | .float x => some x.toDecimal
  | .decimal d => some d
  | _ => none

/-- A text counts as given exactly when it is not empty. -/
theorem isGiven_text (s : String) : (text s).isGiven = !decide (s = "") := by
  by_cases empty : s = "" <;> simp [isGiven, empty]

/-- A record counts as given exactly when it has a field. -/
theorem isGiven_record (fields : List (String × Value)) :
    (record fields).isGiven = !fields.isEmpty := by
  cases fields <;> rfl

end Value

end TokenTable
