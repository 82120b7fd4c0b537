import TokenTable.Token
import TokenTable.Value.Access
import TokenTable.Value.Sorted

/-! # Attribute values

A typed attribute value holds one payload, or the elements of a set. Encoding brings an application
value to a kind: texts and numbers become texts, binary kinds keep byte strings, a scalar kind
refuses collections and a set kind wraps a single value. The native form is a map from the kind's
tag to the payload. Main statements: `ofNative_toNative_set` and `encode_null`. -/

namespace TokenTable

/-- A typed attribute value. -/
inductive Attribute where
  | scalar (element : ScalarKind) (payload : Value)
  | set (element : ScalarKind) (elements : List Value)
deriving Repr

namespace Attribute

def kind : Attribute → Kind
  | .scalar e _ => .scalar e
  | .set e _ => .set e

def isSet : Attribute → Bool
  | .scalar .. => false
  | .set .. => true

/-- The payload as it was encoded or found: a set is a tuple of its elements. -/
def payload : Attribute → Value
  | .scalar _ v => v
  | .set _ elements => .tuple elements

/-- The payload as an application sees it: tuples become lists. -/
def decoded (a : Attribute) : Value :=
  match a.payload with
  | .tuple items => .list items
  | v => v

/-- The native form: a map from the kind's tag to the payload. -/
def toNative (a : Attribute) : Value := .record [(a.kind.tag, a.decoded)]

/-- Brings one value to a scalar kind: byte strings stay byte strings under the binary kind, and
every other value is displayed. -/
def coerce : ScalarKind → Value → Value
  | .binary, .bytes _ content => .bytes .plain content
  | _, v => .text v.display

/-- The order of coerced elements: byte strings first, then texts. -/
def elementLe : Value → Value → Bool
  | .bytes _ content, .bytes _ content' => !decide (content' < content)
  | .bytes .., _ => true
  | _, .bytes .. => false
  | .text s, .text t => !decide (t < s)
  | _, _ => true

/-- The elements that a value contributes to a set kind. Sets are sorted, since their members come
in no order of their own. -/
def elementsOf (e : ScalarKind) : Value → List Value
  | .set _ members => (members.map (coerce e)).mergeSort elementLe
  | .list items | .tuple items => items.map (coerce e)
  | v => [coerce e v]

def encode (v : Value) (kind : Kind) : Except Fault Attribute :=
  if v.isNull then .error (.valueRequired kind)
  else
    match kind with
    | .set e => .ok (.set e (elementsOf e v))
    | .scalar e =>
      if v.isCollection then .error (.collectionRefused kind) else .ok (.scalar e (coerce e v))

/-- The kind that a value names as a tag, if any. Only what may be the key of a map, or a set, may
be looked for among the tags. -/
def kindOfTag? : Value → Except Fault (Option Kind)
  | .text tag => .ok (Kind.ofTag? tag)
  | .set .. => .ok none
  | v => if v.isKey then .ok none else .error .wrongShape

def encodeTagged (v tag : Value) : Except Fault Attribute := do
  match ← kindOfTag? tag with
  | some kind => encode v kind
  | none => throw (.unsupportedTag tag)

/-- The tag of a set's elements; any other tag stays. -/
def elementTag (tag : Value) : Except Fault Value := do
  match ← kindOfTag? tag with
  | some kind => return .text kind.element.tag
  | none => return tag

/-- The typed value of a payload under a kind; the elements of a set may come from anything that
can be gone through. -/
def ofPayload (v : Value) : Kind → Except Fault Attribute
  | .scalar e => .ok (.scalar e v)
  | .set e => return .set e (← v.elements)

def kindOfKey? : Value → Option Kind
  | .text tag => Kind.ofTag? tag
  | _ => none

/-- The typed value of the first entry whose key is a tag. -/
def ofEntries? : Value.Entries → Option (Except Fault Attribute)
  | [] => none
  | (k, v) :: rest =>
    match kindOfKey? k with
    | some kind => some (ofPayload v kind)
    | none => ofEntries? rest

/-- Reads a native form: the first known tag decides. -/
def ofNative : Value → Except Fault Attribute
  | .map entries =>
    match ofEntries? entries with
    | some found => found
    | none => do throw (.noKnownTag (← Value.sorted (entries.map (·.1))))
  | v => .error (.notAnAttribute v.shapeName)

def decode (native : Value) : Except Fault Value := return (← ofNative native).decoded

theorem encode_null (kind : Kind) : encode .null kind = .error (.valueRequired kind) := rfl

theorem ofNative_toNative_set (e : ScalarKind) (elements : List Value) :
    ofNative (toNative (.set e elements)) = .ok (.set e elements) := by
  cases e <;> rfl

end Attribute

end TokenTable
