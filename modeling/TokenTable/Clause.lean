import TokenTable.Fault
import TokenTable.Text.Blank
import TokenTable.Text.Upper

/-! # Clauses

The value under a token of a condition or an update is either a bare value or a tuple of a word and
an optional value. Words are read without regard to blanks around them and to case. Main statement:
`split_of_not_tuple`, whatever is no tuple is a bare value. -/

namespace TokenTable

/-- A word with the value it applies to, which may be null. -/
structure Clause where
  word : String
  value : Value

namespace Clause

/-- Why a tuple is no clause. -/
inductive Malformed where
  /-- The tuple has neither one member nor two. -/
  | shape
  /-- The first member is no text. -/
  | wordNotText

/-- The word of a clause, without blanks and in upper case. -/
def readWord : Value → Except Malformed String
  | .text s => .ok (Text.upper (Text.trim s))
  | _ => .error .wordNotText

/-- Splits a clause; a bare value goes with the default word. -/
def split (defaultWord : String) : Value → Except Malformed Clause
  | .tuple [word] => return ⟨← readWord word, .null⟩
  | .tuple [word, value] => return ⟨← readWord word, value⟩
  | .tuple _ => .error .shape
  | v => .ok ⟨defaultWord, v⟩

theorem split_of_not_tuple (defaultWord : String) (v : Value)
    (bare : ∀ members, v ≠ .tuple members) : split defaultWord v = .ok ⟨defaultWord, v⟩ := by
  cases v with
  | tuple members => exact absurd rfl (bare members)
  | _ => rfl

end Clause

end TokenTable
