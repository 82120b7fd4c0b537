import TokenTable.Text.Blank
import TokenTable.Text.Digit

/-! # Number texts

A numeral is an optional sign, digits with an optional point, and an optional exponent; it denotes
`± coefficient · 10 ^ exponent` exactly. Digits of any script count. Main statement:
`takeDigits_append`, reading digits off a text loses nothing of it. -/

namespace TokenTable

open Text

/-- The exact decimal number that a text denotes. -/
structure Numeral where
  negative : Bool
  coefficient : Nat
  exponent : Int
deriving Repr

/-- An optional sign in front of a text, and the rest; `true` stands for minus. -/
def takeSign : List Char → Bool × List Char
  | '-' :: rest => (true, rest)
  | '+' :: rest => (false, rest)
  | rest => (false, rest)

/-- The digits in front of a text, and the rest. -/
def takeDigits : List Char → List Nat × List Char
  | [] => ([], [])
  | c :: rest =>
    match digitValue? c with
    | some d => let (digits, tail) := takeDigits rest; (d :: digits, tail)
    | none => ([], c :: rest)

/-- The values of a text that consists of digits only. -/
def allDigits? (cs : List Char) : Option (List Nat) :=
  match takeDigits cs with
  | (digits, []) => some digits
  | _ => none

/-- The exponent at the end of a numeral: nothing, or a mark with a signed number. -/
def exponent? : List Char → Option Int
  | [] => some 0
  | mark :: rest =>
    if mark = 'e' || mark = 'E' then
      let (negative, tail) := takeSign rest
      match allDigits? tail with
      | none | some [] => none
      | some digits => some (if negative then -digitsValue digits else digitsValue digits)
    else none

namespace Numeral

def readUnsigned? (negative : Bool) (cs : List Char) : Option Numeral :=
  let (whole, afterWhole) := takeDigits cs
  let (fraction, afterFraction) :=
    match afterWhole with
    | '.' :: rest => takeDigits rest
    | rest => ([], rest)
  if whole.isEmpty && fraction.isEmpty then none
  else (exponent? afterFraction).map fun e =>
    { negative, coefficient := digitsValue (whole ++ fraction), exponent := e - fraction.length }

end Numeral

/-- Whether two ASCII words agree but for case. -/
def sameWord (cs : List Char) (word : String) : Bool := cs.map Char.toLower == word.toList

/-- A text without the underscores between its digits; other underscores are refused. -/
def joinDigitGroups (afterDigit : Bool) : List Char → Option (List Char)
  | [] => some []
  | '_' :: rest =>
    if afterDigit && (rest.head?.bind digitValue?).isSome then joinDigitGroups false rest
    else none
  | c :: rest => (joinDigitGroups (digitValue? c).isSome rest).map (c :: ·)

/-- Texts of whole numbers may have this many digits. -/
def wholeDigitLimit : Nat := 4300

/-- The whole number that characters spell: blanks of a class around it, a sign, and digits in
groups. -/
def readInt? (blank : Char → Bool) (cs : List Char) : Option Int := do
  let (negative, unsigned) := takeSign (trimOf blank cs)
  let digits ← allDigits? (← joinDigitGroups false unsigned)
  if digits.isEmpty || wholeDigitLimit < digits.length then none
  else some (if negative then -digitsValue digits else digitsValue digits)

/-- Reading digits off a text splits it: the digits' values come from its front. -/
theorem takeDigits_append (cs : List Char) :
    ∃ front, cs = front ++ (takeDigits cs).2 ∧
      front.map digitValue? = (takeDigits cs).1.map some := by
  induction cs with
  | nil => exact ⟨[], rfl, rfl⟩
  | cons c rest ih =>
    obtain ⟨front, whole, values⟩ := ih
    cases digit : digitValue? c with
    | none => exact ⟨[], by simp [takeDigits, digit], by simp [takeDigits, digit]⟩
    | some d =>
      refine ⟨c :: front, ?_, ?_⟩
      · simpa [takeDigits, digit] using whole
      · simpa [takeDigits, digit] using values

end TokenTable
