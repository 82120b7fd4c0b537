import TokenTable.Text.Digit

/-! # Decimal numbers

A decimal keeps its coefficient and its exponent, so `1.0` and `1.00` are different spellings of
one number. Comparison is by exact value, whatever the length of the coefficients or the distance
of the exponents. Main statement: `compareFinite_self`, a finite decimal equals itself. -/

-- Powers are those of the number types themselves, also where a monoid's are in scope.
attribute [instance (2000)] instPowNat

namespace TokenTable

open Text

/-- A decimal number, an infinity, or a diagnostic without a value. -/
inductive Decimal where
  /-- The number `± coefficient · 10 ^ exponent`. -/
  | finite (negative : Bool) (coefficient : Nat) (exponent : Int)
  | infinite (negative : Bool)
  /-- No number; a signaling one may not be computed with. -/
  | nan (negative signaling : Bool) (payload : Nat)
deriving DecidableEq, Repr, Inhabited

namespace Decimal

/-- The number of decimal digits of a natural number; zero has one. -/
def digitCount (n : Nat) : Nat := (Nat.toDigits 10 n).length

def leadingExponent (coefficient : Nat) (exponent : Int) : Int :=
  exponent + digitCount coefficient - 1

/-- Compares positive numbers by their leading digits first, so that the coefficients are only
aligned when their exponents are near. -/
def compareMagnitude (c : Nat) (e : Int) (c' : Nat) (e' : Int) : Ordering :=
  let lead := leadingExponent c e
  let lead' := leadingExponent c' e'
  if lead < lead' then .lt
  else if lead' < lead then .gt
  else
    let low := min e e'
    compare (c * 10 ^ (e - low).toNat) (c' * 10 ^ (e' - low).toNat)

/-- Compares two finite decimals by value; the two zeros are equal. -/
def compareFinite (negative : Bool) (c : Nat) (e : Int) (negative' : Bool) (c' : Nat) (e' : Int) :
    Ordering :=
  match c, c' with
  | 0, 0 => .eq
  | 0, _ => if negative' then .gt else .lt
  | _, 0 => if negative then .lt else .gt
  | _, _ =>
    match negative, negative' with
    | false, false => compareMagnitude c e c' e'
    | true, true => compareMagnitude c' e' c e
    | false, true => .gt
    | true, false => .lt

/-- Compares two decimals by value; without a value on either side there is no order. -/
def compare? : Decimal → Decimal → Option Ordering
  | .finite n c e, .finite n' c' e' => some (compareFinite n c e n' c' e')
  | .finite .., .infinite negative => some (if negative then .gt else .lt)
  | .infinite negative, .finite .. => some (if negative then .lt else .gt)
  | .infinite n, .infinite n' => some (compare n'.toNat n.toNat)
  | .nan .., _ | _, .nan .. => none

/-- Whether the two decimals have one value. -/
def sameValue (x y : Decimal) : Bool := compare? x y == some .eq

def isFinite : Decimal → Bool
  | .finite .. => true
  | _ => false

/-- Whether the decimal is one of the two zeros. -/
def isZero : Decimal → Bool
  | .finite _ 0 _ => true
  | _ => false

def ofInt (n : Int) : Decimal := .finite (n < 0) n.natAbs 0

/-- The exact decimal value of `± significand · 2 ^ exponent`. -/
def ofBinary (negative : Bool) (significand : Nat) (exponent : Int) : Decimal :=
  if 0 ≤ exponent then .finite negative (significand * 2 ^ exponent.toNat) 0
  else .finite negative (significand * 5 ^ (-exponent).toNat) exponent

/-- The part of a finite number before its point, without the fraction. -/
def wholePart (negative : Bool) (coefficient : Nat) (exponent : Int) : Int :=
  let magnitude :=
    if 0 ≤ exponent then coefficient * 10 ^ exponent.toNat
    else if (digitCount coefficient : Int) ≤ -exponent then 0
    else coefficient / 10 ^ (-exponent).toNat
  if negative then -magnitude else magnitude

theorem compareFinite_self (negative : Bool) (c : Nat) (e : Int) :
    compareFinite negative c e negative c e = .eq := by
  cases c <;> cases negative <;> simp [compareFinite, compareMagnitude]

end Decimal

end TokenTable
