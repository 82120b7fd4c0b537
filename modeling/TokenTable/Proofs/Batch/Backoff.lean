import TokenTable.Batch.Backoff
import TokenTable.Proofs.Number.Doubles

/-! # The time before a retry

The first wait and the powers of two are doubles, and so are their products: multiplying only moves
the exponent (`firstWait_mul_power`). So the wait before a retry is the first one doubled with every
attempt before the bound applies, and one second from the sixth attempt on (`backoff_eq`), as long
as the power is a double at all. Main statements: `backoff_eq` and `backoff_of_many`.
-/

namespace TokenTable.Batch

open Binary64

/-- Powers of two up to the greatest double are doubles. -/
theorem wholePower_eq {exponent : Nat} (small : exponent < 1024) :
    wholePower exponent = .ok (.finite false (2 ^ 52) (exponent - 52)) := by
  have double : (ofInt? exponent).isNone = false := ofInt?_natCast (by omega)
  have inside : ¬ 1024 ≤ (exponent : Int) := by omega
  have above : ¬ (exponent : Int) < -1100 := by omega
  have rounded : ofScaled false 1 exponent = .finite false (2 ^ 52) (exponent - 52) := by
    apply ofScaled_eq_of_full
    · exact le_rfl
    · norm_num
    · rw [minExponent]
      omega
    · rw [maxExponent]
      omega
    · have full : ((2 ^ 52 : Nat) : ℚ) = 2 ^ (52 : Int) := by norm_num
      rw [full, ← zpow_add₀ two_ne_zero, Nat.cast_one, one_mul, add_sub_cancel]
  simp only [wholePower, inside, decide_false, double, Bool.or_self,
    Bool.false_eq_true, ↓reduceIte, above, rounded]

/-- The significand of the double next to a twentieth. -/
def firstSignificand : Nat := 7205759403792794

theorem firstWait_eq : firstWait = .finite false firstSignificand (-57) := by
  decide +kernel

/-- The first wait times a power of two. -/
theorem firstWait_mul_power {exponent : Nat} (small : exponent < 1024) :
    firstWait.mul (.finite false (2 ^ 52) (exponent - 52)) =
      .finite false firstSignificand (exponent - 57) := by
  rw [firstWait_eq, mul]
  apply ofScaled_eq_of_full
  · decide
  · decide
  · rw [minExponent]
    omega
  · rw [maxExponent]
    omega
  · have exponents : (2 : ℚ) ^ (-57 + ((exponent : Int) - 52)) =
        2 ^ ((exponent : Int) - 57) * (2 ^ (52 : Int))⁻¹ := by
      rw [← zpow_neg, ← zpow_add₀ two_ne_zero]
      congr 1
      omega
    rw [exponents, zpow_ofNat]
    push_cast
    ring

/-- The wait in seconds before a retry: the first one, doubled with every attempt up to a second. -/
def waitBefore (attempt : Int) : Binary64 :=
  if attempt ≤ 5 then .finite false firstSignificand (attempt - 58) else .one

theorem exactValue_one : exactValue false (2 ^ 52) (-52) = 1 := by
  rw [exactValue_false]
  norm_num

/-- The first five waits are less than a second, and no others. -/
theorem one_below_iff (attempt : Int) :
    one.below (.finite false firstSignificand (attempt - 58)) = true ↔ 6 ≤ attempt := by
  rw [one, below_finite_iff, exactValue_one, exactValue_false, firstSignificand]
  constructor
  · intro more
    by_contra few
    have short : (2 : ℚ) ^ (attempt - 58) ≤ 2 ^ (-53 : Int) :=
      zpow_le_zpow_right₀ one_le_two (by omega)
    norm_num at short more
    linarith
  · intro many
    have long : (2 : ℚ) ^ (-52 : Int) ≤ 2 ^ (attempt - 58) :=
      zpow_le_zpow_right₀ one_le_two (by omega)
    norm_num at long ⊢
    linarith

/-- **Up to a thousand and twenty-four attempts there is a wait**, and it is bounded. -/
theorem backoff_eq {attempt : Int} (first : 1 ≤ attempt) (small : attempt ≤ 1024) :
    backoff attempt = .ok (waitBefore attempt) := by
  obtain ⟨exponent, same⟩ := Int.eq_ofNat_of_zero_le (Int.sub_nonneg_of_le first)
  have product : firstWait.mul (.finite false (2 ^ 52) (exponent - 52)) =
      .finite false firstSignificand (attempt - 58) := by
    rw [firstWait_mul_power (by omega)]
    congr 1
    omega
  rw [backoff, same, wholePower_eq (by omega)]
  simp only [bind, Except.bind, pure, Except.pure, bounded, product, waitBefore, one_below_iff]
  congr 1
  by_cases few : attempt ≤ 5
  · rw [if_pos few, if_neg (by omega)]
  · rw [if_neg few, if_pos (by omega)]

/-- After more attempts the power of two is no double, although the bound would do without it. -/
theorem backoff_of_many {attempt : Int} (many : 1024 < attempt) :
    backoff attempt = .error .outOfRange := by
  have beyond : 1024 ≤ attempt - 1 := by omega
  simp only [backoff, wholePower, beyond, decide_true, Bool.true_or, ↓reduceIte]
  rfl

theorem waitBefore_of_few {attempt : Int} (few : attempt ≤ 5) :
    waitBefore attempt = .finite false firstSignificand (attempt - 58) := if_pos few

theorem waitBefore_of_more {attempt : Int} (more : 6 ≤ attempt) : waitBefore attempt = .one :=
  if_neg (by omega)

/-- Every wait is positive and not more than a second. -/
theorem waitBefore_bounds (attempt : Int) :
    zero.below (waitBefore attempt) = true ∧ one.below (waitBefore attempt) = false := by
  by_cases few : attempt ≤ 5
  · rw [waitBefore_of_few few, ← Bool.not_eq_true, one_below_iff]
    refine ⟨?_, by omega⟩
    rw [zero, below_finite_iff, exactValue_zero, exactValue_false, firstSignificand]
    positivity
  · rw [waitBefore_of_more (by omega)]
    exact ⟨by decide +kernel, by decide +kernel⟩

/-- Waits do not become shorter. -/
theorem waitBefore_mono {earlier later : Int} (order : earlier ≤ later) :
    (waitBefore later).below (waitBefore earlier) = false := by
  by_cases few : later ≤ 5
  · rw [waitBefore_of_few few, waitBefore_of_few (by omega), ← Bool.not_eq_true, below_finite_iff,
      exactValue_false, exactValue_false, not_lt]
    gcongr
    exact one_le_two
  · rw [waitBefore_of_more (by omega : 6 ≤ later)]
    exact (waitBefore_bounds earlier).2

/-- Every retry up to the given one has a time to wait before it. -/
theorem exists_backoff {attempt : Nat} (retried : attempt ≠ 0) (small : attempt ≤ 1024) :
    ∃ seconds, backoff attempt = .ok seconds :=
  ⟨_, backoff_eq (by omega) (by omega)⟩

end TokenTable.Batch
