import TokenTable.Fault
import TokenTable.Number.Decimal.Decrement
import TokenTable.Number.Decimal.Reader

/-! # Values as numbers

A value may stand for a decimal number, for a double or, with its fraction dropped, for a whole
number. Texts are read; other shapes are faults. Main statements: `toDecimal_int` and
`wholeNumber_int`. -/

namespace TokenTable.Value

/-- The whole number that a value is; truth values count as one and zero. -/
def whole? : Value → Option Int
  | .int n => some n
  | .bool b => some b.toInt
  | _ => none

/-- A whole number among the parts of a decimal, which must fit a machine word. -/
def decimalPart (v : Value) : Except Fault Int :=
  match v.whole? with
  | none => .error .badValue
  | some n => if -2 ^ (63 : Nat) ≤ n && n < 2 ^ (63 : Nat) then .ok n else .error .outOfRange

/-- Whether the sign among the parts of a decimal is minus. -/
def signPart (v : Value) : Except Fault Bool := do
  let sign ← v.decimalPart
  if sign = 0 then return false
  else if sign = 1 then return true
  else throw .badValue

/-- The value of one digit among the parts of a decimal. -/
def digitPart (v : Value) : Except Fault Nat := do
  let digit ← v.decimalPart
  if 0 ≤ digit && digit < 10 then return digit.toNat else throw .badValue

/-- The digits among the parts of a decimal. -/
def digitParts : Value → Except Fault (List Nat)
  | .list items | .tuple items => items.mapM digitPart
  | _ => .error .badValue

/-- What stands for the exponent among the parts of a decimal. -/
inductive Scale where
  | places (exponent : Int)
  | infinite
  | diagnostic (signaling : Bool)

/-- The exponent among the parts of a decimal, or the letter of a special value. -/
def scalePart : Value → Except Fault Scale
  | .text "F" => .ok .infinite
  | .text "n" => .ok (.diagnostic false)
  | .text "N" => .ok (.diagnostic true)
  | .text _ => .error .badValue
  | v => return .places (← v.decimalPart)

def Scale.decimal (negative : Bool) (coefficient : Nat) : Scale → Except Fault Decimal
  | .places exponent =>
    ((Decimal.ofNumeral? { negative, coefficient, exponent }).map .ok).getD (.error .notNumeric)
  | .infinite => .ok (.infinite negative)
  | .diagnostic signaling => .ok (.nan negative signaling coefficient)

/-- The decimal made of a sign, digits, and an exponent or the letter of a special value. -/
def decimalOfParts : List Value → Except Fault Decimal
  | [sign, digits, exponent] => do
    let negative ← sign.signPart
    let scale ← exponent.scalePart
    let digits ← digits.digitParts
    scale.decimal negative (Text.digitsValue digits)
  | _ => .error .badValue

def toDecimal (v : Value) : Except Fault Decimal :=
  match v.number? with
  | some d => .ok d
  | none =>
    match v with
    | .text s => ((Decimal.read? s).map .ok).getD (.error .notNumeric)
    | .list parts | .tuple parts => decimalOfParts parts
    | _ => .error .wrongShape

/-- Characters that spell no whole number are a bad value. -/
def readWhole (blank : Char → Bool) (cs : List Char) : Except Fault Int :=
  ((readInt? blank cs).map .ok).getD (.error .badValue)

def wholeNumber : Value → Except Fault Int
  | .bool b => .ok b.toInt
  | .int n => .ok n
  | .float (.finite negative m e) => .ok (Binary64.wholePart negative m e)
  | .decimal (.finite negative c e) => .ok (Decimal.wholePart negative c e)
  | .float .nan | .decimal (.nan ..) => .error .badValue
  | .float (.infinite _) | .decimal (.infinite _) => .error .outOfRange
  | .text s => readWhole Text.isNumberBlank s.toList
  | .bytes _ content => readWhole Text.isPlainBlank (Text.charsOfBytes content)
  | _ => .error .wrongShape

/-- The number that a value is as a double; whole numbers beyond the range have none. -/
def toBinary64 : Value → Except Fault Binary64
  | .float x => .ok x
  | v =>
    match v.whole? with
    | some n => ((Binary64.ofInt? n).map .ok).getD (.error .outOfRange)
    | none => .error .wrongShape

/-- The double next to a number of any kind; decimals beyond the range are infinite. -/
def nearestBinary64 : Value → Except Fault Binary64
  | .decimal (.finite negative c e) => .ok (.ofDecimal negative c e)
  | .decimal (.infinite negative) => .ok (.infinite negative)
  | .decimal (.nan _ signaling _) => if signaling then .error .badValue else .ok .nan
  | v => v.toBinary64

/-- The least whole number that is not less than a finite number without a sign. -/
def ceilingOf (numerator denominator : Nat) : Nat := (numerator + denominator - 1) / denominator

/-- The number of whole numbers from zero on that are less than a number. No count reaches what is
infinite or no number, nor a decimal greater than every double. -/
def countBelow? : Value → Option Nat
  | .int n => some n.toNat
  | .bool b => some b.toNat
  | .float (.finite negative m e) =>
    some <|
      if negative then 0
      else if 0 ≤ e then m * 2 ^ e.toNat
      else ceilingOf m (2 ^ (-e).toNat)
  | .decimal (.finite negative c e) =>
    if negative || c = 0 then some 0
    else if 400 < Decimal.leadingExponent c e then none
    else if Decimal.leadingExponent c e < 0 then some 1
    else if 0 ≤ e then some (c * 10 ^ e.toNat)
    else some (ceilingOf c (10 ^ (-e).toNat))
  | _ => none

/-- One less than a number. -/
def minusOne : Value → Except Fault Value
  | .float x => .ok (.float (x.add Binary64.one.negated))
  | .decimal d =>
    match d.minusOne with
    | .ok less => .ok (.decimal less)
    | .error .invalid => .error .notNumeric
    | .error .overflow => .error .numberTooGreat
  | v =>
    match v.whole? with
    | some n => .ok (.int (n - 1))
    | none => .error .wrongShape

theorem toDecimal_int (n : Int) : toDecimal (.int n) = .ok (.ofInt n) := rfl

@[simp] theorem minusOne_int (n : Int) : minusOne (.int n) = .ok (.int (n - 1)) := rfl

theorem wholeNumber_int (n : Int) : wholeNumber (.int n) = .ok n := rfl

end TokenTable.Value
