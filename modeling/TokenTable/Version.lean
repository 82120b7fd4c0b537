import TokenTable.Text.Digit

/-! # Version texts

A release candidate is written `1.2.3-rc.4` in the repository and `1.2.3rc4` in a package. Any other
version stays as it is. -/

namespace TokenTable.Version

open Text

/-- The digits in front of a text and the rest, provided there is a digit. -/
def someDigits? (isDigit : Char → Bool) (cs : List Char) : Option (List Char × List Char) :=
  let front := cs.takeWhile isDigit
  if front.isEmpty then none else some (front, cs.dropWhile isDigit)

/-- The rest of a text after an expected beginning. -/
def after? (expected cs : List Char) : Option (List Char) :=
  if expected.isPrefixOf cs then some (cs.drop expected.length) else none

/-- The release and the candidate number of a release candidate. A line break may follow. -/
def candidate? (cs : List Char) : Option (List Char × List Char) := do
  let anyDigit := fun c => (digitValue? c).isSome
  let (major, rest) ← someDigits? anyDigit cs
  let (minor, rest) ← someDigits? anyDigit (← after? ['.'] rest)
  let (patch, rest) ← someDigits? anyDigit (← after? ['.'] rest)
  let rest ← after? ['-', 'r', 'c'] rest
  let rest := (after? ['.'] rest).getD rest
  let (number, rest) ← someDigits? Char.isDigit rest
  guard (rest = [] || rest = ['\n'])
  return (major ++ '.' :: minor ++ '.' :: patch, number)

def normalize (version : String) : String :=
  match candidate? version.toList with
  | some (release, number) => String.ofList (release ++ 'r' :: 'c' :: number)
  | none => version

/-- The version of this library's repository. -/
def repository : String := "0.3.0"

def package : String := normalize repository

end TokenTable.Version
