import TokenTable.Attribute

/-! # Items

An item maps attribute tokens to values; its native form maps attribute names to typed values.
Main statement: `decode_of_not_given`, an empty native form carries no item. -/

namespace TokenTable

/-- An item in typed form: attribute names with their values, in order. -/
abbrev NativeItem := List (String × Attribute)

def NativeItem.toValue (item : NativeItem) : Value :=
  .record (item.map fun entry => (entry.1, entry.2.toNative))

namespace Item

def encodeEntry (done : NativeItem) (entry : Value × Value) : Except Fault NativeItem := do
  let token ← Token.parse false entry.1
  if entry.2.isNull then throw (.attributeWithoutValue token.name)
  if done.any (·.1 == token.name) then throw (.attributeRepeated token.name)
  return done ++ [(token.name, ← Attribute.encode entry.2 token.kind)]

/-- Encodes an item; each attribute must have a value and may appear only once. -/
def encode : Value → Except Fault NativeItem
  | .map entries => entries.foldlM encodeEntry []
  | v => .error (.notAnItem v.shapeName)

def toNative (item : Value) : Except Fault Value := return (← encode item).toValue

/-- A fault of an unsupported value also tells the attribute. -/
def inAttribute (name : Value) (fault : Fault) : Fault :=
  if fault.category = .unsupportedType then .inAttribute name fault else fault

def attributeOf (entry : Value × Value) : Except Fault Attribute :=
  (Attribute.ofNative entry.2).mapError (inAttribute entry.1)

/-- Decodes a native item; nothing and the empty map carry no item. -/
def decode (native : Value) : Except Fault (Option Value) :=
  if native.isGiven then do
    let decoded ← (← native.entries).mapM fun entry => do
      return (entry.1, (← attributeOf entry).decoded)
    return some (.map decoded)
  else .ok none

/-- The key of an attribute in token form; the default kind keeps the bare name. -/
def tokenKey (name : Value) (kind : Kind) : Value :=
  if kind = .default then name else .text (name.display ++ Token.separator ++ kind.tag)

def addToken (done : Value.Entries) (entry : Value × Value) : Except Fault Value.Entries := do
  let typed ← attributeOf entry
  return Value.upsert (tokenKey entry.1 typed.kind) typed.decoded done

/-- Decodes a native item to token form, which keeps the kinds. -/
def toTokens (native : Value) : Except Fault Value :=
  return .map (← (← native.entries).foldlM addToken [])

def decodeAll (natives : List Value) : Except Fault (List Value) :=
  return (← natives.mapM decode).filterMap id

theorem decode_of_not_given (native : Value) (absent : native.isGiven = false) :
    decode native = .ok none := by
  simp [decode, absent]

end Item

end TokenTable
