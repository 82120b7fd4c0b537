import TokenTable.Number.Decimal.Normal

/-! # Counting decimals down

One less than a decimal, rounded like every result to the number of digits that arithmetic keeps.
A number too great for the exponent range overflows. Main statement: `minusOne_whole`, whole numbers
are counted down exactly. -/

namespace TokenTable.Decimal

/-- How many places a number and one are written out on either side of the point. What lies beyond
only tells on which side of a kept digit the result is. -/
def writtenOut : Nat := 2 * precision + 8

/-- The place of the last digit that a number and one are both written out to. -/
def commonPlace (c : Nat) (e : Int) : Int :=
  if c = 0 then max (-writtenOut) (min e 0)
  else if 0 ≤ e then e - min e writtenOut
  else if leadingExponent c e < -writtenOut then -writtenOut
  else e

/-- A number in units of the common place; a number without a digit there counts as one unit. -/
def units (c : Nat) (e : Int) : Nat :=
  if c = 0 then 0
  else if e < commonPlace c e then 1
  else c * 10 ^ (e - commonPlace c e).toNat

/-- One in units of the common place, or one unit if the place is beyond the point. -/
def unitsOfOne (c : Nat) (e : Int) : Nat := 10 ^ (-commonPlace c e).toNat

def minusOne : Decimal → Except NormalError Decimal
  | .finite negative c e =>
    let less := (if negative then -(units c e : Int) else units c e) - unitsOfOne c e
    let (c', e') := roundToRange less.natAbs (commonPlace c e)
    if maxExponent < leadingExponent c' e' then .error .overflow
    else .ok (.finite (less < 0) c' e')
  | .infinite negative => .ok (.infinite negative)
  | .nan negative signaling payload =>
    if signaling then .error .invalid else .ok (.nan negative false (payload % 10 ^ precision))

theorem minusOne_whole (n : Nat) (short : digitCount n ≤ precision) :
    minusOne (.finite false (n + 1) 0) = .ok (.finite false n 0) := by
  have place : commonPlace (n + 1) 0 = 0 := by
    simp only [commonPlace, writtenOut, Nat.add_one_ne_zero, ↓reduceIte]
    omega
  have less : (units (n + 1) 0 : Int) - unitsOfOne (n + 1) 0 = n := by
    simp [units, unitsOfOne, place]
  have few : leadingExponent n 0 ≤ maxExponent := by
    have : (digitCount n : Int) ≤ precision := by exact_mod_cast short
    simp only [leadingExponent, maxExponent]
    simp only [precision] at this
    omega
  have notSmall : ¬ leadingExponent n 0 < -999999 := by
    simp only [leadingExponent]
    omega
  have rounded : roundToRange n 0 = (n, 0) := by
    simp [roundToRange, roundToPrecision, notSmall, short]
  have notGreat : ¬ maxExponent < leadingExponent n 0 := by omega
  have notNegative : ¬ (n : Int) < 0 := by omega
  simp [minusOne, less, place, rounded, notGreat, notNegative]

end TokenTable.Decimal
