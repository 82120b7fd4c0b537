import TokenTable.Value.Numeric
import TokenTable.Value.Ordered

/-! # Cancellation tokens

A token tells whether an operation is cancelled. One kind cancels after a number of questions, the
other is set or not. Main statement: `poll_countdown`. -/

namespace TokenTable

inductive CancelToken where
  /-- Answers no while a number is greater than zero, and counts it down. -/
  | countdown (remaining : Value)
  | event (isSet : Bool)
deriving Repr

namespace CancelToken

/-- A token that cancels after a number of questions, which may not be negative. -/
def after (checks : Value) : Except Fault CancelToken := do
  if ← checks.isBelow 0 then throw .checksNegative
  return .countdown checks

/-- Asks the token, which counts the question. -/
def poll : CancelToken → Except Fault (Bool × CancelToken)
  | .countdown remaining => do
    if ← remaining.isAtMost 0 then return (true, .countdown remaining)
    return (false, .countdown (← remaining.minusOne))
  | .event isSet => .ok (isSet, .event isSet)

theorem poll_countdown (n : Nat) :
    poll (.countdown (.int (n + 1))) = .ok (false, .countdown (.int n)) := by
  have more : ¬ (n : Int) + 1 ≤ 0 := by omega
  simp [poll, Value.isAtMost_int, more, bind, Except.bind, pure, Except.pure]

theorem poll_countdown_zero :
    poll (.countdown (.int 0)) = .ok (true, .countdown (.int 0)) := rfl

end CancelToken

end TokenTable
