import TokenTable.Number.Binary64.Basic
import TokenTable.Number.Numeral

/-! # Reading doubles

A number text without blanks around it is read as the double nearest to the number it denotes.
Underscores may join digits, and the words for infinity and for no number are read without regard
to case. -/

namespace TokenTable.Binary64

open Text

/-- The double that a text without its sign spells. -/
def readUnsigned? (negative : Bool) (cs : List Char) : Option Binary64 :=
  if sameWord cs "inf" || sameWord cs "infinity" then some (.infinite negative)
  else if sameWord cs "nan" then some .nan
  else do
    let numeral ← Numeral.readUnsigned? negative (← joinDigitGroups false cs)
    return ofDecimal negative numeral.coefficient numeral.exponent

def read? (cs : List Char) : Option Binary64 :=
  let (negative, unsigned) := takeSign cs
  readUnsigned? negative unsigned

end TokenTable.Binary64
