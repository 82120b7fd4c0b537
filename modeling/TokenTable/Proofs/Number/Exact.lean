import Mathlib.Algebra.Order.Field.Power
import Mathlib.Data.Nat.Cast.Order.Ring
import Mathlib.Data.Rat.Cast.Order
import Mathlib.Tactic.Positivity
import Mathlib.Tactic.Ring
import TokenTable.Number.Decimal.Basic

/-! # Exact values of decimals

A finite decimal stands for one rational number, whatever its spelling, the length of its
coefficient or the size of its exponent. Decimals are compared by that number
(`compareFinite_eq_compare`), although their powers of ten are hardly ever written out.
-/

namespace TokenTable

/-- A whole number brought to a lower power of a base. -/
theorem mul_pow_sub (base : Nat) (nonzero : base ≠ 0) (m : Nat) {low e : Int} (within : low ≤ e) :
    ((m * base ^ (e - low).toNat : Nat) : ℚ) * (base : ℚ) ^ low = m * (base : ℚ) ^ e := by
  have split : e = ((e - low).toNat : Int) + low := by omega
  conv_rhs => rw [split]
  rw [zpow_add₀ (Nat.cast_ne_zero.mpr nonzero), zpow_natCast]
  push_cast
  ring

namespace Decimal

/-- The number `± coefficient · 10 ^ exponent`. -/
def exactValue (negative : Bool) (coefficient : Nat) (exponent : Int) : ℚ :=
  (if negative then -1 else 1) * (coefficient * 10 ^ exponent)

theorem digitCount_le_iff (n : Nat) {k : Nat} (positive : 0 < k) :
    digitCount n ≤ k ↔ n < 10 ^ k :=
  Nat.length_toDigits_le_iff (by decide) positive

theorem digitCount_pos (n : Nat) : 0 < digitCount n := Nat.length_toDigits_pos

/-- A number has fewer digits than a power of ten that is greater. -/
theorem lt_pow_digitCount (n : Nat) : n < 10 ^ digitCount n :=
  (digitCount_le_iff n (digitCount_pos n)).mp (Nat.le_refl _)

theorem pow_digitCount_le {n : Nat} (positive : n ≠ 0) : 10 ^ (digitCount n - 1) ≤ n := by
  by_cases single : digitCount n = 1
  · rw [single]
    exact Nat.one_le_iff_ne_zero.mpr positive
  · have several : 0 < digitCount n - 1 := by
      have := digitCount_pos n
      omega
    by_contra less
    have fewer := (digitCount_le_iff n several).mpr (Nat.lt_of_not_le less)
    omega

/-- The leading digit of a positive number tells the power of ten at or below it. -/
theorem pow_leadingExponent_le {c : Nat} (positive : c ≠ 0) (e : Int) :
    (10 : ℚ) ^ leadingExponent c e ≤ c * 10 ^ e := by
  have split : leadingExponent c e = ((digitCount c - 1 : Nat) : Int) + e := by
    have := digitCount_pos c
    rw [leadingExponent]
    omega
  rw [split, zpow_add₀ (by norm_num), zpow_natCast]
  gcongr
  exact_mod_cast pow_digitCount_le positive

theorem lt_pow_leadingExponent (c : Nat) (e : Int) :
    (c : ℚ) * 10 ^ e < 10 ^ (leadingExponent c e + 1) := by
  have split : leadingExponent c e + 1 = (digitCount c : Int) + e := by
    rw [leadingExponent]
    omega
  rw [split, zpow_add₀ (by norm_num), zpow_natCast]
  gcongr
  exact_mod_cast lt_pow_digitCount c

/-- A number with a smaller leading exponent is smaller. -/
theorem lt_of_leadingExponent_lt (c : Nat) (e : Int) {c' : Nat} (e' : Int) (positive' : c' ≠ 0)
    (lower : leadingExponent c e < leadingExponent c' e') : (c : ℚ) * 10 ^ e < c' * 10 ^ e' :=
  calc (c : ℚ) * 10 ^ e < 10 ^ (leadingExponent c e + 1) := lt_pow_leadingExponent c e
    _ ≤ 10 ^ leadingExponent c' e' := zpow_le_zpow_right₀ (by norm_num) (by omega)
    _ ≤ c' * 10 ^ e' := pow_leadingExponent_le positive' e'

/-- A coefficient brought to a lower exponent. -/
theorem aligned (c : Nat) {low e : Int} (within : low ≤ e) :
    ((c * 10 ^ (e - low).toNat : Nat) : ℚ) * 10 ^ low = c * 10 ^ e :=
  mul_pow_sub 10 (by decide) c within

/-- Multiples of a positive number compare as their factors do. -/
theorem compare_mul_unit {unit : ℚ} (positive : 0 < unit) (m n : Nat) :
    compare ((m : ℚ) * unit) (n * unit) = compare m n := by
  rw [compare_iff]
  cases order : compare m n with
  | lt => exact mul_lt_mul_of_pos_right (Nat.cast_lt.mpr (compare_lt_iff_lt.mp order)) positive
  | eq => exact congrArg (fun k : Nat => (k : ℚ) * unit) (compare_eq_iff_eq.mp order)
  | gt => exact mul_lt_mul_of_pos_right (Nat.cast_lt.mpr (compare_gt_iff_gt.mp order)) positive

theorem compareMagnitude_eq_compare {c c' : Nat} (positive : c ≠ 0) (positive' : c' ≠ 0)
    (e e' : Int) :
    compareMagnitude c e c' e' = compare ((c : ℚ) * 10 ^ e) (c' * 10 ^ e') := by
  simp only [compareMagnitude]
  split
  · rename_i lower
    exact (compare_lt_iff_lt.mpr (lt_of_leadingExponent_lt c e e' positive' lower)).symm
  split
  · rename_i higher
    exact (compare_gt_iff_gt.mpr (lt_of_leadingExponent_lt c' e' e positive higher)).symm
  · rw [← aligned c (Int.min_le_left e e'), ← aligned c' (Int.min_le_right e e')]
    exact (compare_mul_unit (by positivity) _ _).symm

theorem compare_neg_neg (p q : ℚ) : compare (-p) (-q) = compare q p := by
  rw [compare_iff]
  cases order : compare q p with
  | lt => exact neg_lt_neg (compare_lt_iff_lt.mp order)
  | eq => exact congrArg Neg.neg (compare_eq_iff_eq.mp order).symm
  | gt => exact neg_lt_neg (compare_gt_iff_gt.mp order)

theorem exactValue_pos {c : Nat} (positive : c ≠ 0) (e : Int) : 0 < exactValue false c e := by
  have : (0 : ℚ) < c := Nat.cast_pos.mpr (Nat.pos_of_ne_zero positive)
  simp only [exactValue, Bool.false_eq_true, ↓reduceIte, one_mul]
  positivity

theorem exactValue_neg (c : Nat) (e : Int) : exactValue true c e = -exactValue false c e := by
  simp [exactValue]

@[simp] theorem exactValue_zero (negative : Bool) (e : Int) : exactValue negative 0 e = 0 := by
  simp [exactValue]

/-- **Decimals are compared by their exact values.** -/
theorem compareFinite_eq_compare (n : Bool) (c : Nat) (e : Int) (n' : Bool) (c' : Nat) (e' : Int) :
    compareFinite n c e n' c' e' = compare (exactValue n c e) (exactValue n' c' e') := by
  symm
  cases c with
  | zero =>
      rw [exactValue_zero]
      cases c' with
      | zero => exact compare_eq_iff_eq.mpr (exactValue_zero n' e').symm
      | succ m' =>
          have positive := exactValue_pos (Nat.succ_ne_zero m') e'
          cases n' with
          | false => exact compare_lt_iff_lt.mpr positive
          | true =>
              rw [exactValue_neg]
              exact compare_gt_iff_gt.mpr (neg_neg_of_pos positive)
  | succ m =>
      have positive := exactValue_pos (Nat.succ_ne_zero m) e
      cases c' with
      | zero =>
          rw [exactValue_zero]
          cases n with
          | false => exact compare_gt_iff_gt.mpr positive
          | true =>
              rw [exactValue_neg]
              exact compare_lt_iff_lt.mpr (neg_neg_of_pos positive)
      | succ m' =>
          have positive' := exactValue_pos (Nat.succ_ne_zero m') e'
          cases n with
          | false =>
              cases n' with
              | false =>
                  simp only [exactValue, Bool.false_eq_true, ↓reduceIte, one_mul]
                  exact (compareMagnitude_eq_compare (Nat.succ_ne_zero m) (Nat.succ_ne_zero m')
                    e e').symm
              | true =>
                  rw [exactValue_neg]
                  exact compare_gt_iff_gt.mpr ((neg_neg_of_pos positive').trans positive)
          | true =>
              cases n' with
              | false =>
                  rw [exactValue_neg]
                  exact compare_lt_iff_lt.mpr ((neg_neg_of_pos positive).trans positive')
              | true =>
                  rw [exactValue_neg, exactValue_neg, compare_neg_neg]
                  simp only [exactValue, Bool.false_eq_true, ↓reduceIte, one_mul]
                  exact (compareMagnitude_eq_compare (Nat.succ_ne_zero m') (Nat.succ_ne_zero m)
                    e' e).symm

end Decimal

end TokenTable
