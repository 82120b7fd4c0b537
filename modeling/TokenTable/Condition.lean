import TokenTable.Attribute
import TokenTable.Clause
import TokenTable.Fields

/-! # Conditions

A condition compares an attribute with operands. A bare value means equality; otherwise a tuple
names the operator. Main statements: `Operator.ofName?_name` and `ofClause_equal`. -/

namespace TokenTable

/-- The comparison operators. -/
inductive Operator where
  | equal
  | notEqual
  | atMost
  | less
  | atLeast
  | greater
  | between
  | oneOf
  | absent
  | present
  | contains
  | lacks
  | beginsWith
deriving DecidableEq, Repr

namespace Operator

def name : Operator → String
  | .equal => "EQ"
  | .notEqual => "NE"
  | .atMost => "LE"
  | .less => "LT"
  | .atLeast => "GE"
  | .greater => "GT"
  | .between => "BETWEEN"
  | .oneOf => "IN"
  | .absent => "NULL"
  | .present => "NOT_NULL"
  | .contains => "CONTAINS"
  | .lacks => "NOT_CONTAINS"
  | .beginsWith => "BEGINS_WITH"

def all : List Operator :=
  [.equal, .notEqual, .atMost, .less, .atLeast, .greater, .between, .oneOf, .absent, .present,
    .contains, .lacks, .beginsWith]

def ofName? (name : String) : Option Operator := all.find? (·.name == name)

/-- Whether the operator compares with nothing. -/
def isNullary : Operator → Bool
  | .absent | .present => true
  | _ => false

theorem ofName?_name (op : Operator) : ofName? op.name = some op := by
  cases op <;> decide

end Operator

/-- An operator with its typed operands; a nullary operator has none. -/
structure Condition where
  operator : Operator
  operands : Option (List Attribute)
deriving Repr

namespace Condition

def toNative (condition : Condition) : Value :=
  .record <| ("ComparisonOperator", .text condition.operator.name) ::
    match condition.operands with
    | none => []
    | some operands => [("AttributeValueList", .list (operands.map Attribute.toNative))]

/-- The members of a sequence of operands: lists, tuples, and views of bytes. -/
def sequence? : Value → Option (List Value)
  | .list items | .tuple items => some items
  | .bytes .view content => some (content.map fun b => .int b.toNat)
  | _ => none

/-- The typed operands that an operator makes of a value that is not null. -/
def operandsOf (text : String) (kind : Kind) (operand : Value) :
    Operator → Except Fault (List Attribute)
  | .between =>
    match sequence? operand with
    | some [low, high] => return [← Attribute.encode low kind, ← Attribute.encode high kind]
    | _ => .error (.boundsRequired text)
  | .oneOf =>
    match sequence? operand with
    | some items => items.mapM fun item => Attribute.encode item kind
    | none => .error (.sequenceRequired text)
  | .contains | .lacks => return [← Attribute.encode operand kind.element]
  | _ => return [← Attribute.encode operand kind]

/-- Builds the condition of an operator name and an operand. -/
def ofClause (text : String) (kind : Kind) (clause : Clause) : Except Fault Condition :=
  match Operator.ofName? clause.word with
  | none => .error (.unknownOperator text clause.word)
  | some op =>
    if op.isNullary then
      if clause.value.isNull then .ok ⟨op, none⟩ else .error (.operandRefused text op.name)
    else if clause.value.isNull then .error (.operandRequired text op.name)
    else return ⟨op, some (← operandsOf text kind clause.value op)⟩

def malformed (text : String) : Clause.Malformed → Fault
  | .shape => .conditionShape text
  | .wordNotText => .operatorNotText text

/-- The attribute's name and the typed condition of a token and its clause. -/
def ofEntry (token clause : Value) : Except Fault (String × Condition) := do
  let parsed ← Token.parse false token
  let split ← (Clause.split Operator.equal.name clause).mapError (malformed token.display)
  return (parsed.name, ← ofClause token.display parsed.kind split)

/-- The typed conditions of a map by name; of two for one attribute the later takes the earlier's
place. -/
def ofEntries (conditions : Value) : Except Fault (List (String × Condition)) := do
  (← conditions.entries).foldlM (fun done entry => do
    let (name, condition) ← ofEntry entry.1 entry.2
    return upsertField name condition done) []

def toNativeAll (conditions : Value) : Except Fault Value :=
  return .record ((← ofEntries conditions).map fun entry => (entry.1, entry.2.toNative))

/-- A text under the equality operator is encoded under the attribute's kind. -/
theorem ofClause_equal (text s : String) (kind : Kind) :
    ofClause text kind ⟨Operator.equal.name, .text s⟩ =
      (Attribute.encode (.text s) kind).map fun a => ⟨.equal, some [a]⟩ := by
  unfold ofClause
  rw [Operator.ofName?_name]
  cases encoded : Attribute.encode (.text s) kind <;>
    simp [operandsOf, encoded, Except.map, Operator.isNullary, Value.isNull, bind, Except.bind,
      pure, Except.pure]

end Condition

end TokenTable
