import TokenTable.Number.Binary64.Power
import TokenTable.Value.Numeric

/-! # Backing off before a retry

The wait before a retry starts at a twentieth of a second and doubles with every attempt up to one
second. The doubling is computed before the bound applies, so attempts whose power of two is no
double are out of range. Main statement: `backoffOf_int`, a whole number of retries
needs no fractional power. -/

namespace TokenTable.Batch

def firstWait : Binary64 := .ofDecimal false 5 (-2)

/-- Two to a whole power as a double; powers far below the smallest double are zero. -/
def wholePower (exponent : Int) : Except Fault Binary64 :=
  if 1024 ≤ exponent || (Binary64.ofInt? exponent).isNone then .error .outOfRange
  else if exponent < -1100 then .ok .zero
  else .ok (.ofScaled false 1 exponent)

/-- The first wait multiplied, but no more than a second. -/
def bounded (factor : Binary64) : Binary64 :=
  let wait := firstWait.mul factor
  if Binary64.one.below wait then .one else wait

def backoff (attempt : Int) : Except Fault Binary64 :=
  return bounded (← wholePower (attempt - 1))

/-- The power of two for a count of earlier retries, which may have a fraction. -/
def powerOf : Value → Except Fault Binary64
  | .float x => (x.powerOfTwo.map .ok).getD (.error .outOfRange)
  | .int n => wholePower n
  | _ => .error .wrongShape

/-- The wait in seconds before a retry whose number may have a fraction; a decimal is no number of
retries. -/
def backoffOf (attempt : Value) : Except Fault Binary64 := do
  return bounded (← powerOf (← attempt.minusOne))

theorem backoffOf_int (attempt : Int) : backoffOf (.int attempt) = backoff attempt := rfl

end TokenTable.Batch
