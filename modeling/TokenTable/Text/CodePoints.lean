/-! # Sets of code points

Character properties are finite unions of closed ranges of code points. Main statement:
`covers_iff` reads membership back as membership in one of the ranges. -/

namespace TokenTable.Text

/-- A closed range of code points. -/
abbrev CodeRange := Nat × Nat

def covers (ranges : List CodeRange) (code : Nat) : Bool :=
  ranges.any fun range => range.1 ≤ code && code ≤ range.2

theorem covers_iff (ranges : List CodeRange) (code : Nat) :
    covers ranges code = true ↔ ∃ range ∈ ranges, range.1 ≤ code ∧ code ≤ range.2 := by
  simp [covers]

end TokenTable.Text
