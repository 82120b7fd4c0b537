import TokenTable.Fallible
import TokenTable.Fields
import TokenTable.Token
import TokenTable.Value.Access
import TokenTable.Value.Ordered

/-! # Table layouts

The request that creates a table names its key attributes, its secondary indexes and the kind of
every attribute used in either. Main statement: `lookup_keyAttribute`, the kind of a key attribute
is recorded under its name. -/

namespace TokenTable

/-- What a new table shall look like. -/
structure Layout where
  table : Value
  hashKey : Value
  rangeKey : Value
  indexes : Value
  readCapacity : Value
  writeCapacity : Value

namespace Layout

/-- The kinds of the key attributes by name. -/
abbrev Definitions := List (String × Kind)

/-- Reads the token of a key attribute and records its kind, which must be scalar. -/
def keyAttribute (definitions : Definitions) (text : Value) :
    Except Fault (String × Definitions) := do
  let token ← Token.parse true text
  match token.kind with
  | .scalar _ => return (token.name, upsertField token.name token.kind definitions)
  | .set _ => throw (.keyKindRefused text.display)

def keyPart (name role : String) : Value :=
  .record [("AttributeName", .text name), ("KeyType", .text role)]

/-- The token of an index's sort attribute. -/
def indexToken (index : Value) : Except Fault Value := do
  match ← index.get "name" with
  | .text s => if s = "" then throw .indexNeedsName else return .text s
  | _ => throw .indexNeedsName

/-- The projection of an index; none given is all attributes. -/
def projection (index : Value) : Except Fault String := do
  let kind ← index.get "projection_type"
  return if kind.isGiven then kind.display else "ALL"

/-- Adds one secondary index to those already made. -/
def addIndex (hashName : String) (hasRange : Bool) (done : List Value × Definitions)
    (index : Value) : Except Fault (List Value × Definitions) := do
  if !hasRange then throw .indexNeedsRangeKey
  let (name, definitions) ← keyAttribute done.2 (← indexToken index)
  let entry := Value.record
    [("IndexName", .text (name ++ "Index")),
      ("KeySchema", .list [keyPart hashName "HASH", keyPart name "RANGE"]),
      ("Projection", .record [("ProjectionType", .text (← projection index))])]
  return (done.1 ++ [entry], definitions)

/-- The recorded kinds by name, in order. -/
def attributeDefinitions (definitions : Definitions) : Value :=
  .list <| (definitions.mergeSort fun a b => !decide (b.1 < a.1)).map fun entry =>
    .record [("AttributeName", .text entry.1), ("AttributeType", .text entry.2.tag)]

def rangePart (definitions : Definitions) (rangeKey : Value) :
    Except Fault (List Value × Definitions) := do
  if rangeKey.isNull then return ([], definitions)
  let (name, definitions) ← keyAttribute definitions rangeKey
  return ([keyPart name "RANGE"], definitions)

def request (layout : Layout) : Except Fault (List (String × Value)) := do
  if !layout.table.isGiven then throw .tableNameRequired
  if ← layout.readCapacity.isAtMost 0 then throw .capacityNotPositive
  if ← layout.writeCapacity.isAtMost 0 then throw .capacityNotPositive
  let (hashName, definitions) ← keyAttribute [] layout.hashKey
  let (range, definitions) ← rangePart definitions layout.rangeKey
  let (indexes, definitions) ← (← layout.indexes.elements).foldlM
    (addIndex hashName (!layout.rangeKey.isNull)) ([], definitions)
  return [("TableName", layout.table),
      ("KeySchema", .list (keyPart hashName "HASH" :: range)),
      ("AttributeDefinitions", attributeDefinitions definitions),
      ("ProvisionedThroughput", .record
        [("ReadCapacityUnits", layout.readCapacity),
          ("WriteCapacityUnits", layout.writeCapacity)])] ++
    if indexes.isEmpty then [] else [("LocalSecondaryIndexes", .list indexes)]

/-- The kind of a key attribute is recorded under its name, and it is scalar. -/
theorem lookup_keyAttribute (definitions after : Definitions) (text : Value) (name : String)
    (read : keyAttribute definitions text = .ok (name, after)) :
    ∃ element, after.lookup name = some (.scalar element) := by
  obtain ⟨token, _, read⟩ := (bind_eq_ok_iff _ _ _).mp read
  cases kind : token.kind with
  | set element =>
    rw [kind] at read
    cases read
  | scalar element =>
    rw [kind] at read
    cases read
    exact ⟨element, lookup_upsertField _ _ _⟩

end Layout

end TokenTable
