import TokenTable.Number.Binary64.Basic

/-! # Powers of two with a double exponent

The power of two with a fractional exponent is a product of repeated square roots of two, one for
each binary digit of the fraction. The roots are computed to far more places than a double holds,
and the product is rounded once. Main statement: `squareRoot_sq_le`. -/

namespace TokenTable.Binary64

/-- The number of binary places that roots and their products are computed to. -/
def rootPlaces : Nat := 192

/-- The number of binary digits of a fractional exponent that are used. -/
def fractionDigits : Nat := 128

/-- Adds the lower bits of a root of `n` to its upper bits, as long as its square stays within
`n`. -/
def refineRoot (n : Nat) : Nat → Nat → Nat
  | 0, root => root
  | bit + 1, root =>
    let next := root + 2 ^ bit
    refineRoot n bit (if next * next ≤ n then next else root)

/-- The whole part of the square root of a number with at most twice as many bits. -/
def squareRoot (bits n : Nat) : Nat := refineRoot n bits 0

/-- Multiplies a product by further square roots of two where a binary digit is set. -/
def multiplyRoots : List Bool → Nat → Nat → Nat
  | [], _, product => product
  | digit :: rest, root, product =>
    let next := squareRoot (rootPlaces + 1) (root * 2 ^ rootPlaces)
    multiplyRoots rest next (if digit then product * next / 2 ^ rootPlaces else product)

/-- The power of two whose exponent has the given digits after the point, in units of the last
place that roots are computed to. -/
def fractionalPower (fraction : Nat) : Nat :=
  let digits := (List.range fractionDigits).map fun n => fraction.testBit (fractionDigits - 1 - n)
  multiplyRoots digits (2 * 2 ^ rootPlaces) (2 ^ rootPlaces)

/-- The greatest whole number below a finite double, and the rest of the double in digits after the
point. -/
def splitWhole (negative : Bool) (significand : Nat) (exponent : Int) : Int × Nat :=
  if 0 ≤ exponent then (wholePart negative significand exponent, 0)
  else
    let unit := 2 ^ (-exponent).toNat
    let whole : Int := (significand / unit : Nat)
    let rest := significand % unit
    if negative && rest != 0 then (-whole - 1, (unit - rest) * 2 ^ fractionDigits / unit)
    else (if negative then -whole else whole, rest * 2 ^ fractionDigits / unit)

/-- Two to the power of a double; a power beyond the range is none. -/
def powerOfTwo : Binary64 → Option Binary64
  | .nan => some .nan
  | .infinite negative => some (if negative then zero else .infinite false)
  | .finite negative m e =>
    let (whole, fraction) := splitWhole negative m e
    if 1024 ≤ whole then none
    else if whole < -1100 then some zero
    else if fraction = 0 then some (ofScaled false 1 whole)
    else some (ofScaled false (fractionalPower fraction) (whole - rootPlaces))

theorem squareRoot_sq_le (bits n : Nat) : squareRoot bits n * squareRoot bits n ≤ n := by
  have refined : ∀ root, root * root ≤ n → refineRoot n bits root * refineRoot n bits root ≤ n := by
    induction bits with
    | zero => exact fun _ within => within
    | succ bit ih =>
      intro root within
      unfold refineRoot
      by_cases fits : (root + 2 ^ bit) * (root + 2 ^ bit) ≤ n
      · simp only [if_pos fits]
        exact ih _ fits
      · simp only [if_neg fits]
        exact ih _ within
  exact refined 0 (Nat.zero_le n)

end TokenTable.Binary64
