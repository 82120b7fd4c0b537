import TokenTable.Number.Decimal.Basic
import TokenTable.Number.Rounding

/-! # Double-precision numbers

A double is a sign, a significand below `2 ^ 53` and a binary exponent, or an infinity, or no
number. Every operation computes exactly in whole numbers and rounds once, to the nearest double,
ties to the even significand. Main statements: `nearest_zero`, and `add_comm`, addition does not
depend on the order of its arguments. -/

namespace TokenTable

inductive Binary64 where
  | nan
  | infinite (negative : Bool)
  /-- The number `± significand · 2 ^ exponent`. -/
  | finite (negative : Bool) (significand : Nat) (exponent : Int)
deriving DecidableEq, Repr, Inhabited

namespace Binary64

/-- The exponent of the smallest positive double. -/
def minExponent : Int := -1074

/-- The exponent of the greatest doubles. -/
def maxExponent : Int := 971

/-- The number of bits of a full significand. -/
def significandBits : Nat := 53

/-- The quotient `num · 2 ^ (-shift) / den` as a pair of naturals. -/
def scaled (num den : Nat) (shift : Int) : Nat × Nat :=
  if 0 ≤ shift then (num, den * 2 ^ shift.toNat) else (num * 2 ^ (-shift).toNat, den)

/-- The exponent of the last significand bit of the double next to `num / den`. -/
def lastPlace (num den : Nat) : Int :=
  let guess : Int := (Nat.log2 num : Int) - Nat.log2 den
  let (top, bottom) := scaled num den guess
  let lead := if bottom ≤ top then guess else guess - 1
  max minExponent (lead - (significandBits - 1))

/-- The double with a given significand, which may have grown by one bit; too great a number is
infinite. -/
def pack (negative : Bool) (significand : Nat) (exponent : Int) : Binary64 :=
  let (m, e) :=
    if significand < 2 ^ significandBits then (significand, exponent)
    else (significand / 2, exponent + 1)
  if maxExponent < e then .infinite negative else .finite negative m e

/-- The double nearest to `± num / den`; a tie goes to the even significand. -/
def nearest (negative : Bool) (num den : Nat) : Binary64 :=
  if num = 0 then .finite negative 0 minExponent
  else
    let place := lastPlace num den
    let (top, bottom) := scaled num den place
    pack negative (roundHalfEven top bottom) place

/-- The double nearest to `± magnitude · 2 ^ exponent`. -/
def ofScaled (negative : Bool) (magnitude : Nat) (exponent : Int) : Binary64 :=
  if 0 ≤ exponent then nearest negative (magnitude * 2 ^ exponent.toNat) 1
  else nearest negative magnitude (2 ^ (-exponent).toNat)

/-- The double nearest to `± coefficient · 10 ^ exponent`. Exponents far out of range are settled
without computing the power. -/
def ofDecimal (negative : Bool) (coefficient : Nat) (exponent : Int) : Binary64 :=
  if coefficient = 0 then .finite negative 0 minExponent
  else if 400 < Decimal.leadingExponent coefficient exponent then .infinite negative
  else if Decimal.leadingExponent coefficient exponent < -400 then .finite negative 0 minExponent
  else if 0 ≤ exponent then nearest negative (coefficient * 10 ^ exponent.toNat) 1
  else nearest negative coefficient (10 ^ (-exponent).toNat)

def zero : Binary64 := .finite false 0 minExponent

def one : Binary64 := .finite false (2 ^ (52 : Nat)) (-52)

/-- The double nearest to a whole number; a number beyond the range has none. -/
def ofInt? (n : Int) : Option Binary64 :=
  match nearest (n < 0) n.natAbs 1 with
  | .infinite _ => none
  | x => some x

def negated : Binary64 → Binary64
  | .nan => .nan
  | .infinite negative => .infinite !negative
  | .finite negative m e => .finite (!negative) m e

/-- The significand of a finite double at a lower exponent, with its sign. -/
def aligned (negative : Bool) (significand : Nat) (exponent low : Int) : Int :=
  let magnitude : Int := significand * 2 ^ (exponent - low).toNat
  if negative then -magnitude else magnitude

def add : Binary64 → Binary64 → Binary64
  | .finite n m e, .finite n' m' e' =>
    let low := min e e'
    let sum := aligned n m e low + aligned n' m' e' low
    if sum = 0 then .finite (n && n') 0 minExponent else ofScaled (sum < 0) sum.natAbs low
  | .infinite n, .infinite n' => if n = n' then .infinite n else .nan
  | .infinite n, .finite .. | .finite .., .infinite n => .infinite n
  | .nan, _ | _, .nan => .nan

/-- The rounded product of finite doubles; other products have no use here. -/
def mul : Binary64 → Binary64 → Binary64
  | .finite n m e, .finite n' m' e' => ofScaled (n != n') (m * m') (e + e')
  | .infinite n, .infinite n' => .infinite (n != n')
  | .infinite n, .finite n' m _ | .finite n' m _, .infinite n =>
    if m = 0 then .nan else .infinite (n != n')
  | .nan, _ | _, .nan => .nan

/-- The exact value as a decimal. -/
def toDecimal : Binary64 → Decimal
  | .nan => .nan false false 0
  | .infinite negative => .infinite negative
  | .finite negative m e => .ofBinary negative m e

/-- The order of two doubles by value; without a number on either side there is none. -/
def compare? : Binary64 → Binary64 → Option Ordering
  | .finite n m e, .finite n' m' e' =>
    let low := min e e'
    some (compare (aligned n m e low) (aligned n' m' e' low))
  | .infinite n, .infinite n' => some (compare n'.toNat n.toNat)
  | .infinite n, .finite .. => some (if n then .lt else .gt)
  | .finite .., .infinite n => some (if n then .gt else .lt)
  | .nan, _ | _, .nan => none

def below (x y : Binary64) : Bool := compare? x y == some .lt

/-- Whether the double is one of the two zeros. -/
def isZero : Binary64 → Bool
  | .finite _ 0 _ => true
  | _ => false

/-- The whole number left when the fraction is dropped. -/
def wholePart (negative : Bool) (significand : Nat) (exponent : Int) : Int :=
  let magnitude : Int :=
    if 0 ≤ exponent then significand * 2 ^ exponent.toNat
    else significand / 2 ^ (-exponent).toNat
  if negative then -magnitude else magnitude

theorem nearest_zero (negative : Bool) (den : Nat) :
    nearest negative 0 den = .finite negative 0 minExponent := rfl

theorem add_comm (x y : Binary64) : add x y = add y x := by
  cases x <;> cases y <;> simp only [add]
  · rename_i n n'
    by_cases same : n = n'
    · simp [same]
    · simp [same, Ne.symm same]
  · simp only [Int.min_comm, Int.add_comm, Bool.and_comm]

end Binary64

end TokenTable
