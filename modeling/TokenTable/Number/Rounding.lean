/-! # Rounding a quotient to the nearest whole number

All inexact arithmetic of the library rounds one exact quotient of natural numbers. Main
statements: `roundHalfEven_exact`, an exact quotient is kept, and `roundHalfEven_close`, the result
lies within half a unit of the quotient. -/

namespace TokenTable

/-- The whole number nearest to `num / den`; a tie goes to the even neighbour. -/
def roundHalfEven (num den : Nat) : Nat :=
  let whole := num / den
  let doubled := 2 * (num % den)
  if doubled < den then whole
  else if den < doubled then whole + 1
  else whole + whole % 2

theorem roundHalfEven_exact (q den : Nat) (positive : 0 < den) :
    roundHalfEven (q * den) den = q := by
  simp [roundHalfEven, Nat.mul_div_cancel q positive, Nat.mul_mod_left, positive]

theorem roundHalfEven_close (num den : Nat) (positive : 0 < den) :
    2 * num ≤ (2 * roundHalfEven num den + 1) * den ∧
      2 * (roundHalfEven num den * den) ≤ 2 * num + den := by
  have split := Nat.div_add_mod num den
  have small := Nat.mod_lt num positive
  generalize num / den = whole at split
  generalize remains : num % den = rest at split small
  have rounded : roundHalfEven num den = whole ∧ 2 * rest ≤ den ∨
      roundHalfEven num den = whole + 1 ∧ den ≤ 2 * rest := by
    have quotient : num / den = whole := by
      rw [← split, Nat.mul_add_div positive, Nat.div_eq_of_lt small, Nat.add_zero]
    simp only [roundHalfEven, quotient, remains]
    split
    · exact Or.inl ⟨rfl, by omega⟩
    · split
      · exact Or.inr ⟨rfl, by omega⟩
      · rcases Nat.mod_two_eq_zero_or_one whole with even | odd
        · exact Or.inl ⟨by omega, by omega⟩
        · exact Or.inr ⟨by omega, by omega⟩
  have product : whole * den = den * whole := Nat.mul_comm _ _
  rcases rounded with ⟨same, bound⟩ | ⟨same, bound⟩
  · rw [same, Nat.add_mul, Nat.mul_assoc, product]
    omega
  · rw [same, Nat.add_mul, Nat.mul_assoc, Nat.add_mul, product]
    omega

/-- A quotient is not rounded below a whole number that it reaches. -/
theorem le_roundHalfEven {k num den : Nat} (positive : 0 < den) (least : k * den ≤ num) :
    k ≤ roundHalfEven num den := by
  have close := (roundHalfEven_close num den positive).1
  have scaled : (2 * k) * den ≤ (2 * roundHalfEven num den + 1) * den := by
    rw [Nat.mul_assoc]
    omega
  have within := Nat.le_of_mul_le_mul_right scaled positive
  omega

/-- A quotient is not rounded beyond a whole number that it does not exceed. -/
theorem roundHalfEven_le {k num den : Nat} (positive : 0 < den) (most : num ≤ k * den) :
    roundHalfEven num den ≤ k := by
  have close := (roundHalfEven_close num den positive).2
  have scaled : (2 * roundHalfEven num den) * den ≤ (2 * k + 1) * den := by
    rw [Nat.mul_assoc, Nat.add_mul, Nat.mul_assoc, Nat.one_mul]
    omega
  have within := Nat.le_of_mul_le_mul_right scaled positive
  omega

end TokenTable
