import TokenTable.Number.Decimal.Basic

/-! # Writing decimals

A decimal shows all its digits. The usual text turns to scientific notation for positive exponents
and for numbers that would start with more than five zeros after the point; the plain text never
does. Main statement: `plain_whole`, a whole number is written by its digits. -/

namespace TokenTable.Decimal

def signText (negative : Bool) : String := if negative then "-" else ""

/-- Digits with a point before the last `places` of them. -/
def withPoint (digits : List Char) (places : Nat) : List Char :=
  if places = 0 then digits
  else if places < digits.length then
    digits.take (digits.length - places) ++ '.' :: digits.drop (digits.length - places)
  else ['0', '.'] ++ List.replicate (places - digits.length) '0' ++ digits

def plainDigits (coefficient : Nat) (exponent : Int) : List Char :=
  let digits := Nat.toDigits 10 coefficient
  if 0 ≤ exponent then
    if coefficient = 0 then digits else digits ++ List.replicate exponent.toNat '0'
  else withPoint digits (-exponent).toNat

/-- The text with one digit before the point and an explicit exponent. -/
def scientificDigits (coefficient : Nat) (exponent : Int) : List Char :=
  let digits := Nat.toDigits 10 coefficient
  let lead := leadingExponent coefficient exponent
  withPoint digits (digits.length - 1) ++ 'E' :: (if lead < 0 then '-' else '+') ::
    Nat.toDigits 10 lead.natAbs

def specialText : Decimal → String
  | .finite .. => ""
  | .infinite negative => signText negative ++ "Infinity"
  | .nan negative signaling payload =>
    signText negative ++ (if signaling then "sNaN" else "NaN") ++
      (if payload = 0 then "" else toString payload)

def toText : Decimal → String
  | .finite negative c e =>
    signText negative ++ String.ofList
      (if e ≤ 0 && -6 ≤ leadingExponent c e then plainDigits c e else scientificDigits c e)
  | special => special.specialText

/-- The text of a decimal that never has an exponent. -/
def toPlain : Decimal → String
  | .finite negative c e => signText negative ++ String.ofList (plainDigits c e)
  | special => special.specialText

theorem plain_whole (n : Nat) : plainDigits n 0 = Nat.toDigits 10 n := by
  simp [plainDigits]

end TokenTable.Decimal
