import TokenTable.Number.Decimal.Basic
import TokenTable.Number.Numeral

/-! # Reading decimals

A decimal is read exactly: no digit is rounded. Underscores may stand anywhere, and the words for
infinity and for diagnostics are read without regard to case. Numbers whose exponents do not fit
the widest range are refused. -/

namespace TokenTable.Decimal

open Text

/-- The greatest exponent that a leading digit may have. -/
def exponentLimit : Int := 999999999999999999

/-- The least exponent that a coefficient may have. -/
def lastPlaceLimit : Int := -1999999999999999997

/-- A finite decimal within the widest exponent range. -/
def ofNumeral? (numeral : Numeral) : Option Decimal :=
  if leadingExponent numeral.coefficient numeral.exponent ≤ exponentLimit &&
      lastPlaceLimit ≤ numeral.exponent then
    some (.finite numeral.negative numeral.coefficient numeral.exponent)
  else none

/-- The payload digits of a diagnostic, of which there may be none. -/
def payload? (cs : List Char) : Option Nat := (allDigits? cs).map digitsValue

/-- The decimal that a text without its sign spells. -/
def readUnsigned? (negative : Bool) (cs : List Char) : Option Decimal :=
  if sameWord cs "inf" || sameWord cs "infinity" then some (.infinite negative)
  else if sameWord (cs.take 3) "nan" then (payload? (cs.drop 3)).map (.nan negative false)
  else if sameWord (cs.take 4) "snan" then (payload? (cs.drop 4)).map (.nan negative true)
  else (Numeral.readUnsigned? negative cs).bind ofNumeral?

def read? (s : String) : Option Decimal :=
  let (negative, unsigned) := takeSign ((trim s).toList.filter (· ≠ '_'))
  readUnsigned? negative unsigned

end TokenTable.Decimal
