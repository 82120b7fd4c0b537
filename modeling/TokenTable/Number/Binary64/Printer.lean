import TokenTable.Number.Binary64.Basic

/-! # Writing doubles

The shortest text of a double has the fewest digits that lie closer to it than to any other double,
and among those the nearest. It is positional while the leading digit's exponent lies from -4 to
15. A text with fixed places rounds the exact value, ties to the even digit. Main statement:
`shortestText_zero`, zero keeps its sign. -/

namespace TokenTable.Binary64

/-- The reals that round to a double, in quarters of its last place over a common denominator. -/
structure Interval where
  low : Nat
  value : Nat
  high : Nat
  /-- Whether the ends round to the double too. -/
  closed : Bool
  denominator : Nat

/-- The reals that round to `significand · 2 ^ exponent`. Below a power of two the neighbour lies
half as far. -/
def interval (significand : Nat) (exponent : Int) : Interval :=
  let below := if significand = 2 ^ (significandBits - 1) && minExponent < exponent then 1 else 2
  let shift := exponent - 2
  let up := if 0 ≤ shift then 2 ^ shift.toNat else 1
  let down := if 0 ≤ shift then 1 else 2 ^ (-shift).toNat
  { low := (4 * significand - below) * up
    value := 4 * significand * up
    high := (4 * significand + 2) * up
    closed := significand % 2 = 0
    denominator := down }

/-- Whether `num / den` is at least `10 ^ k`. -/
def reachesPower (num den : Nat) (k : Int) : Bool :=
  if 0 ≤ k then den * 10 ^ k.toNat ≤ num else den ≤ num * 10 ^ (-k).toNat

/-- The exponent of the leading decimal digit of a positive quotient. -/
def decimalLead (num den : Nat) : Int :=
  let guess := ((Nat.log2 num : Int) - Nat.log2 den) * 30103 / 100000
  if reachesPower num den (guess + 1) then guess + 1
  else if reachesPower num den guess then guess
  else guess - 1

/-- A decimal `digits · 10 ^ place` in an interval's units, as a numerator and its denominator's
extra factor. -/
def inUnits (bounds : Interval) (digits : Nat) (place : Int) : Nat × Nat :=
  if 0 ≤ place then (digits * 10 ^ place.toNat * bounds.denominator, 1)
  else (digits * bounds.denominator, 10 ^ (-place).toNat)

/-- Whether the decimal `digits · 10 ^ place` rounds to the interval's double. -/
def Interval.admits (bounds : Interval) (digits : Nat) (place : Int) : Bool :=
  let (num, scale) := inUnits bounds digits place
  if bounds.closed then bounds.low * scale ≤ num && num ≤ bounds.high * scale
  else bounds.low * scale < num && num < bounds.high * scale

/-- The decimal with last place `place` nearest below or above the value that rounds to the
double, if there is one; of two the nearer, and of equally near ones the even. -/
def Interval.onGrid? (bounds : Interval) (place : Int) : Option Nat :=
  let (top, bottom) :=
    if 0 ≤ place then (bounds.value, bounds.denominator * 10 ^ place.toNat)
    else (bounds.value * 10 ^ (-place).toNat, bounds.denominator)
  let floor := top / bottom
  match bounds.admits floor place, bounds.admits (floor + 1) place with
  | true, true => some (roundHalfEven top bottom)
  | true, false => some floor
  | false, true => some (floor + 1)
  | false, false => none

/-- The shortest decimal that rounds to the double, as digits and a last place. -/
def Interval.shortest (bounds : Interval) (lead : Int) : Nat × Int :=
  let places := (List.range 17).map fun n : Nat => lead - (n : Int)
  match places.findSome? fun place => (bounds.onGrid? place).map (·, place) with
  | some found => found
  | none => (bounds.value / bounds.denominator, 0)

/-- The digits of a decimal without trailing zeros, and the exponent of the first. -/
def significantDigits (digits : Nat) (place : Int) : List Char × Int :=
  let shown := Nat.toDigits 10 digits
  let lead := place + shown.length - 1
  let kept := (shown.reverse.dropWhile (· == '0')).reverse
  (if kept.isEmpty then ['0'] else kept, lead)

/-- An exponent with its sign and at least two digits. -/
def exponentText (e : Int) : List Char :=
  let digits := Nat.toDigits 10 e.natAbs
  (if e < 0 then '-' else '+') :: List.replicate (2 - digits.length) '0' ++ digits

/-- Digits laid out positionally, or with an exponent where that would be long. -/
def layout (digits : List Char) (lead : Int) : List Char :=
  if -4 ≤ lead && lead < 16 then
    if lead < 0 then ['0', '.'] ++ List.replicate (-lead - 1).toNat '0' ++ digits
    else
      let whole := lead.toNat + 1
      let fraction := digits.drop whole
      digits.take whole ++ List.replicate (whole - digits.length) '0' ++
        '.' :: (if fraction.isEmpty then ['0'] else fraction)
  else
    digits.take 1 ++ (if digits.length ≤ 1 then [] else '.' :: digits.drop 1) ++
      'e' :: exponentText lead

def signChars (negative : Bool) : List Char := if negative then ['-'] else []

/-- The shortest text that reads back as the double. -/
def shortestText : Binary64 → String
  | .nan => "nan"
  | .infinite negative => if negative then "-inf" else "inf"
  | .finite negative m e =>
    String.ofList <| signChars negative ++
      if m = 0 then ['0', '.', '0']
      else
        let bounds := interval m e
        let (digits, place) := bounds.shortest (decimalLead bounds.value bounds.denominator)
        let (shown, lead) := significantDigits digits place
        layout shown lead

/-- The text with a fixed number of places after the point. -/
def fixedText (places : Nat) : Binary64 → String
  | .nan => "nan"
  | .infinite negative => if negative then "-inf" else "inf"
  | .finite negative m e =>
    let units :=
      if 0 ≤ e then m * 2 ^ e.toNat * 10 ^ places
      else roundHalfEven (m * 10 ^ places) (2 ^ (-e).toNat)
    let digits := Nat.toDigits 10 units
    let padded := List.replicate (places + 1 - digits.length) '0' ++ digits
    let split := padded.length - places
    String.ofList <| signChars negative ++ padded.take split ++
      if places = 0 then [] else '.' :: padded.drop split

theorem shortestText_zero (negative : Bool) (e : Int) :
    shortestText (.finite negative 0 e) = if negative then "-0.0" else "0.0" := by
  cases negative <;> rfl

end TokenTable.Binary64
