import TokenTable.Value.Equal

/-! # The order of values

Some values have an order: numbers by value, texts by code point, byte strings by byte, sets by
proper inclusion, and lists and tuples by their first difference. Other values cannot be compared,
and decimals cannot be compared with what is no number. Main statements: `before_text` and
`isBelow_int`. -/

namespace TokenTable.Value

def isDecimal : Value → Bool
  | .decimal _ => true
  | _ => false

/-- The order of two numeric values. Nothing is greater or less than a double that is no number,
and beside a decimal the question is a fault. -/
def order? : Value → Value → Except Fault (Option Ordering)
  | .int m, .int n => .ok (some (compare m n))
  | v, w =>
    match v.number?, w.number? with
    | some x, some y =>
      match x.compare? y with
      | some order => .ok (some order)
      | none => if v.isDecimal || w.isDecimal then .error .notNumeric else .ok none
    | _, _ => .error .wrongShape

/-- Whether byte strings of two forms have an order: a view has one beside a growable one only. -/
def comparableForms : BytesForm → BytesForm → Bool
  | .growable, _ | _, .growable => true
  | .view, _ | _, .view => false
  | .plain, .plain => true

mutual

/-- Whether the first value comes before the second. -/
def before : Value → Value → Except Fault Bool
  | .text s, .text t => .ok (decide (s < t))
  | .bytes form content, .bytes form' content' =>
    if comparableForms form form' then .ok (decide (content < content')) else .error .wrongShape
  | .list items, .list items' => beforeItems items items'
  | .tuple items, .tuple items' => beforeItems items items'
  | .set _ members, .set _ members' =>
    .ok (members.length < members'.length && allWithin members members')
  | v, w => return (← order? v w) == some .lt
termination_by structural v => v

/-- The order of two lists by their first difference; a list comes after its beginnings. -/
def beforeItems : List Value → List Value → Except Fault Bool
  | [], rest => .ok (!rest.isEmpty)
  | _ :: _, [] => .ok false
  | v :: rest, w :: rest' => do if ← equal v w then beforeItems rest rest' else before v w
termination_by structural vs => vs

end

/-- Whether a number is less than a whole number. -/
def isBelow (v : Value) (n : Int) : Except Fault Bool := return (← order? v (.int n)) == some .lt

/-- Whether a number is a whole number or less than it. -/
def isAtMost (v : Value) (n : Int) : Except Fault Bool :=
  return match ← order? v (.int n) with
    | some order => order != .gt
    | none => false

@[simp] theorem before_text (s t : String) : before (.text s) (.text t) = .ok (decide (s < t)) :=
  rfl

theorem isBelow_int (n bound : Int) : isBelow (.int n) bound = .ok (decide (n < bound)) := by
  have less : (some (compare n bound) == some Ordering.lt) = decide (n < bound) := by
    rw [Bool.eq_iff_iff, beq_iff_eq, Option.some.injEq, decide_eq_true_iff]
    exact Int.compare_eq_lt
  simp [isBelow, order?, bind, Except.bind, pure, Except.pure, less]

theorem isAtMost_int (n bound : Int) : isAtMost (.int n) bound = .ok (decide (n ≤ bound)) := by
  have least : (compare n bound != .gt) = decide (n ≤ bound) := by
    rw [Bool.eq_iff_iff, bne_iff_ne, decide_eq_true_iff, ne_eq, Int.compare_eq_gt, Int.not_lt]
  simp [isAtMost, order?, bind, Except.bind, pure, Except.pure, least]

end TokenTable.Value
