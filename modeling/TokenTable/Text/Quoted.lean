import TokenTable.Text.Printable

/-! # Quoted texts

A quoted text stands between single quotes, or between double quotes when it holds a single quote
and no double one. The delimiter and the backslash are escaped, line breaks and tabs have short
forms, and any other character that is not shown as itself is written by its code in two, four or
eight hexadecimal digits. Main statement: `quoted_bounds`, the same delimiter stands at both
ends. -/

namespace TokenTable.Text

/-- A number in at least `width` hexadecimal digits. -/
def hex (width n : Nat) : List Char :=
  let digits := Nat.toDigits 16 n
  List.replicate (width - digits.length) '0' ++ digits

def escapedCode (code : Nat) : List Char :=
  if code < 256 then ['\\', 'x'] ++ hex 2 code
  else if code < 65536 then ['\\', 'u'] ++ hex 4 code
  else ['\\', 'U'] ++ hex 8 code

/-- The written form of one character, where a backslash guards one delimiter. -/
def escapedChar (shown : Char → Bool) (guarded c : Char) : List Char :=
  if c = guarded || c = '\\' then ['\\', c]
  else if c = '\n' then ['\\', 'n']
  else if c = '\r' then ['\\', 'r']
  else if c = '\t' then ['\\', 't']
  else if shown c then [c]
  else escapedCode c.toNat

/-- The delimiter of a quoted text: a double quote only where it saves escaping. -/
def quoteMark (cs : List Char) : Char :=
  if cs.contains '\'' && !cs.contains '"' then '"' else '\''

/-- The characters between delimiters, with `guarded` escaped and those that are not `shown`
written by their codes. -/
def quoted (shown : Char → Bool) (guarded : Char) (cs : List Char) : List Char :=
  let mark := quoteMark cs
  mark :: cs.flatMap (escapedChar shown guarded) ++ [mark]

def quote (s : String) : String :=
  String.ofList (quoted isPrintable (quoteMark s.toList) s.toList)

/-- A byte string as the characters with its bytes as codes. -/
def charsOfBytes (content : List UInt8) : List Char := content.map fun b => Char.ofNat b.toNat

/-- Whether a byte string in quotes shows a byte as a character. -/
def isShownByte (c : Char) : Bool := 32 ≤ c.toNat && c.toNat < 127

/-- A byte string in quotes: only printable ASCII is shown as itself. -/
def quoteBytes (content : List UInt8) : String :=
  let cs := charsOfBytes content
  String.ofList ('b' :: quoted isShownByte (quoteMark cs) cs)

/-- A growable byte string in quotes escapes every single quote, whatever its delimiter. -/
def quoteGrowable (content : List UInt8) : String :=
  String.ofList ('b' :: quoted isShownByte '\'' (charsOfBytes content))

/-- The same delimiter stands at both ends. -/
theorem quoted_bounds (shown : Char → Bool) (guarded : Char) (cs : List Char) :
    (quoted shown guarded cs).head? = some (quoteMark cs) ∧
      (quoted shown guarded cs).getLast? = some (quoteMark cs) := by
  refine ⟨rfl, ?_⟩
  simp only [quoted, List.getLast?_append, List.getLast?_singleton,
    Option.some_or]

end TokenTable.Text
