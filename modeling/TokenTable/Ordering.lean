import TokenTable.Number.Decimal.Reader
import TokenTable.Value.Access

/-! # Ordering items

Items are put in the order of one attribute, forward or backward; items without it go last. Number
texts compare as numbers and come first, then other texts, byte strings, lists, and the rest by
their written form. Items that compare equal keep their places in both directions. Main statement:
`orderItems_none`, without an order nothing moves. -/

namespace TokenTable

/-- The attribute to order by, and the direction. -/
structure Order where
  key : String
  forward : Bool
deriving DecidableEq, Repr

namespace Order

/-- The direction that an option names; none given is forward. -/
def direction : Value → Except Fault Bool
  | .null => .ok true
  | .bool forward => .ok forward
  | v => .error (.orderDirection v)

def ofValue : Value → Except Fault (Option Order)
  | .null => .ok none
  | .map entries =>
    match (Value.lookup? entries (.text "Key")).getD .null with
    | .text key => do
      if key = "" then throw .orderKeyRequired
      let forward ← direction ((Value.lookup? entries (.text "Forward")).getD (.bool true))
      return some { key, forward }
    | _ => .error .orderKeyRequired
  | _ => .error .orderShape

end Order

/-- What an item is ordered by. -/
inductive SortKey where
  | number (negative : Bool) (coefficient : Nat) (exponent : Int)
  | text (s : String)
  | bytes (content : List UInt8)
  | list (written : List String)
  | other (written : String)
deriving DecidableEq, Repr

namespace SortKey

/-- The sort key of a text: a finite number, or the text itself. -/
def ofText (s : String) : SortKey :=
  match Decimal.read? s with
  | some (.finite negative c e) => .number negative c e
  | _ => .text s

def ofValue : Value → SortKey
  | .text s => ofText s
  | .int n => ofText (Value.display (.int n))
  | .float x => ofText (Value.display (.float x))
  | .decimal d => ofText (Value.display (.decimal d))
  | .bytes .plain content => .bytes content
  | .list items => .list (items.map Value.written)
  | v => .other v.written

/-- The place of a sort key's group. -/
def rank : SortKey → Nat
  | .number .. => 0
  | .text _ => 1
  | .bytes _ => 2
  | .list _ => 3
  | .other _ => 4

def before : SortKey → SortKey → Bool
  | .number n c e, .number n' c' e' => Decimal.compareFinite n c e n' c' e' == .lt
  | .text s, .text t => s < t
  | .bytes b, .bytes b' => b < b'
  | .list l, .list l' => l < l'
  | .other s, .other t => s < t
  | k, k' => k.rank < k'.rank

end SortKey

/-- Whether an item may stand before another in the given direction. -/
def mayPrecede (forward : Bool) (a b : SortKey × Value) : Bool :=
  if forward then !b.1.before a.1 else !a.1.before b.1

/-- Orders items by an attribute; items without it go last. -/
def orderBy (order : Order) (items : List Value) : Except Fault (List Value) := do
  let marked ← items.mapM fun item => do return (← item.holds order.key, item)
  let present := (marked.filter (·.1)).map (·.2)
  let missing := (marked.filter (!·.1)).map (·.2)
  let keyed ← present.mapM fun item => do return (SortKey.ofValue (← item.index order.key), item)
  return (keyed.mergeSort (mayPrecede order.forward)).map (·.2) ++ missing

/-- Orders items, if an order is given. -/
def arrange (order : Option Order) (items : List Value) : Except Fault (List Value) :=
  match order with
  | none => .ok items
  | some order => orderBy order items

/-- Orders items as an option says. -/
def orderItems (items : List Value) (order : Value) : Except Fault (List Value) := do
  arrange (← Order.ofValue order) items

/-- Orders the members of a value as an option says. -/
def orderMembers (items order : Value) : Except Fault (List Value) := do
  let order ← Order.ofValue order
  arrange order (← items.elements)

theorem orderItems_none (items : List Value) : orderItems items .null = .ok items := rfl

end TokenTable
