import TokenTable.Number.Decimal.Basic
import TokenTable.Number.Rounding

/-! # Normal form of decimals

The normal form rounds a decimal to twenty-eight digits and drops trailing zeros, so that equal
short numbers have one spelling. A number too great for the exponent range overflows; one too small
becomes zero. Main statements: `normal_zero`, all zeros of one sign have one normal form, and
`normal_signaling`. -/

namespace TokenTable.Decimal

/-- Why a decimal has no normal form. -/
inductive NormalError where
  /-- The decimal is a signaling diagnostic. -/
  | invalid
  /-- The leading digit's exponent is out of range. -/
  | overflow
deriving DecidableEq, Repr

def precision : Nat := 28

/-- The greatest exponent of a leading digit. -/
def maxExponent : Int := 999999

/-- The exponent of the last place of the smallest numbers. -/
def minPlace : Int := -999999 - (precision - 1)

/-- Drops trailing zeros of a coefficient while the exponent may still grow by `room`. -/
def dropZeros : Nat → Nat → Int → Nat × Int
  | 0, c, e => (c, e)
  | room + 1, c, e => if c % 10 = 0 then dropZeros room (c / 10) (e + 1) else (c, e)

/-- The coefficient and exponent with `drop` digits rounded away. -/
def roundAway (c : Nat) (e : Int) (drop : Nat) : Nat × Int :=
  if digitCount c < drop then (0, e + drop) else (roundHalfEven c (10 ^ drop), e + drop)

/-- The coefficient rounded to the precision; a carry into a further digit is divided out. -/
def roundToPrecision (c : Nat) (e : Int) : Nat × Int :=
  let digits := digitCount c
  if digits ≤ precision then (c, e)
  else
    let (c', e') := roundAway c e (digits - precision)
    if digitCount c' ≤ precision then (c', e') else (c' / 10, e' + 1)

/-- The coefficient within the precision, and within the places of small numbers. -/
def roundToRange (c : Nat) (e : Int) : Nat × Int :=
  if leadingExponent c e < -999999 && e < minPlace then roundAway c e (minPlace - e).toNat
  else roundToPrecision c e

def normal : Decimal → Except NormalError Decimal
  | .finite negative c e =>
    if c = 0 then .ok (.finite negative 0 0)
    else if maxExponent < leadingExponent c e then .error .overflow
    else
      let (c', e') := roundToRange c e
      if c' = 0 then .ok (.finite negative 0 0)
      else if maxExponent < leadingExponent c' e' then .error .overflow
      else
        let room := min (digitCount c') (maxExponent - e').toNat
        let (c'', e'') := dropZeros room c' e'
        .ok (.finite negative c'' e'')
  | .infinite negative => .ok (.infinite negative)
  | .nan negative signaling payload =>
    if signaling then .error .invalid else .ok (.nan negative false (payload % 10 ^ precision))

theorem normal_zero (negative : Bool) (e : Int) :
    normal (.finite negative 0 e) = .ok (.finite negative 0 0) := rfl

theorem normal_signaling (negative : Bool) (payload : Nat) :
    normal (.nan negative true payload) = .error .invalid := rfl

end TokenTable.Decimal
