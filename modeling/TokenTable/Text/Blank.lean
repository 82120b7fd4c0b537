import TokenTable.Text.CodePoints

/-! # Blank characters

Trimming removes blanks at both ends of a text. Besides the ASCII blanks these are the four
information separators and every space or line separator of the wider repertoire. Byte strings are
trimmed of the plain ASCII blanks alone, and whole numbers of a class between the two. Main
statement: `isBlank_of_isWhitespace`, the ASCII class is among them. -/

namespace TokenTable.Text

/-- The code points that trimming removes. -/
def blankRanges : List CodeRange :=
  [(9, 13), (28, 32), (133, 133), (160, 160), (5760, 5760), (8192, 8202), (8232, 8233),
    (8239, 8239), (8287, 8287), (12288, 12288)]

def isBlank (c : Char) : Bool := covers blankRanges c.toNat

/-- Whether the character is an ASCII blank and no information separator. -/
def isPlainBlank (c : Char) : Bool := (9 ≤ c.toNat && c.toNat ≤ 13) || c = ' '

/-- Whether the character may stand around a whole number: the information separators may not. -/
def isNumberBlank (c : Char) : Bool := isPlainBlank c || (128 ≤ c.toNat && isBlank c)

/-- A list without the blanks of a class at either end. -/
def trimOf {α : Type} (blank : α → Bool) (items : List α) : List α :=
  ((items.dropWhile blank).reverse.dropWhile blank).reverse

def trim (s : String) : String := String.ofList (trimOf isBlank s.toList)

theorem isBlank_of_isWhitespace (c : Char) (white : c.isWhitespace = true) : isBlank c = true := by
  simp only [Char.isWhitespace, Bool.or_eq_true, decide_eq_true_eq] at white
  rcases white with (((rfl | rfl) | rfl) | rfl) <;> decide

end TokenTable.Text
