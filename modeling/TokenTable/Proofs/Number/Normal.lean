import Mathlib.Tactic.Linarith
import TokenTable.Number.Decimal.Normal
import TokenTable.Proofs.Number.Exact

/-! # Normal forms of short numbers

A number with at most twenty-eight significant digits, none of them beyond the last place of small
numbers, is not rounded by its normal form, which drops trailing zeros only
(`exists_normal_of_short`). A number without trailing zeros is told by its value
(`eq_of_reduced`), so short numbers have one normal form exactly when they are equal. A normal form
is short and in range (`isNormal_of_normal`), so it is its own normal form, also once its zeros are
written out (`normal_of_isNormal`).
-/

namespace TokenTable.Decimal

/-- A number whose normal form is exact: it has at most twenty-eight significant digits, none of
them beyond the last place of small numbers, and it is not minus zero. -/
structure Short (negative : Bool) (coefficient : Nat) (exponent : Int) : Prop where
  signed : coefficient = 0 → negative = false
  significant : ∃ digits zeros, coefficient = digits * 10 ^ zeros ∧
    digitCount digits ≤ precision ∧ minPlace ≤ exponent + (zeros : Nat)

/-- A number without trailing zeros; zero has the exponent zero and no sign. -/
def Reduced (negative : Bool) (coefficient : Nat) (exponent : Int) : Prop :=
  coefficient % 10 ≠ 0 ∨ coefficient = 0 ∧ exponent = 0 ∧ negative = false

/-- Zeros that are moved into the exponent leave the value. -/
theorem exactValue_shift (negative : Bool) (c zeros : Nat) (e : Int) :
    exactValue negative (c * 10 ^ zeros) e = exactValue negative c (e + zeros) := by
  rw [exactValue, exactValue, zpow_add₀ (by norm_num), zpow_natCast]
  push_cast
  ring

theorem digitCount_shift {c : Nat} (positive : c ≠ 0) (zeros : Nat) :
    digitCount (c * 10 ^ zeros) = digitCount c + zeros := by
  apply Nat.le_antisymm
  · rw [digitCount_le_iff _ (by have := digitCount_pos c; omega), Nat.pow_add]
    exact Nat.mul_lt_mul_of_pos_right (lt_pow_digitCount c) (by positivity)
  · have count := digitCount_pos c
    by_contra fewer
    have less : c * 10 ^ zeros < 10 ^ (digitCount c - 1) * 10 ^ zeros := by
      rw [← Nat.pow_add]
      have bound := lt_pow_digitCount (c * 10 ^ zeros)
      refine lt_of_lt_of_le bound (Nat.pow_le_pow_right (by decide) (by omega))
    exact absurd (pow_digitCount_le positive) (Nat.not_le.mpr (Nat.lt_of_mul_lt_mul_right less))

/-- Dropped zeros come back by a shift; no more are left unless the room ran out. -/
theorem dropZeros_shift (room c : Nat) (e : Int) :
    ∃ zeros ≤ room, c = (dropZeros room c e).1 * 10 ^ zeros ∧
      (dropZeros room c e).2 = e + zeros ∧ ((dropZeros room c e).1 % 10 ≠ 0 ∨ zeros = room) := by
  induction room generalizing c e with
  | zero => exact ⟨0, Nat.le_refl 0, by simp [dropZeros], by simp [dropZeros], Or.inr rfl⟩
  | succ room ih =>
      rw [dropZeros]
      split
      · rename_i even
        obtain ⟨zeros, within, whole, place, left⟩ := ih (c / 10) (e + 1)
        refine ⟨zeros + 1, by omega, ?_, ?_, left.imp id (congrArg (· + 1))⟩
        · calc c = c / 10 * 10 := by omega
            _ = (dropZeros room (c / 10) (e + 1)).1 * 10 ^ zeros * 10 := by rw [← whole]
            _ = (dropZeros room (c / 10) (e + 1)).1 * 10 ^ (zeros + 1) := by ring
        · rw [place]
          omega
      · rename_i odd
        exact ⟨0, by omega, by simp, by simp, Or.inl odd⟩

/-- Zeros are rounded away exactly. -/
theorem roundAway_shift {digits zeros drop : Nat} (positive : digits ≠ 0) (few : drop ≤ zeros)
    (e : Int) :
    roundAway (digits * 10 ^ zeros) e drop = (digits * 10 ^ (zeros - drop), e + drop) := by
  have enough : ¬ digitCount (digits * 10 ^ zeros) < drop := by
    rw [digitCount_shift positive]
    omega
  have split : digits * 10 ^ zeros = digits * 10 ^ (zeros - drop) * 10 ^ drop := by
    rw [Nat.mul_assoc, ← Nat.pow_add, Nat.sub_add_cancel few]
  rw [roundAway, if_neg enough]
  conv_lhs => rw [split]
  rw [roundHalfEven_exact _ _ (by positivity)]

/-- Rounding moves zeros of a short number into its exponent and does nothing else. -/
theorem roundToRange_shift {digits zeros : Nat} {e : Int} (positive : digits ≠ 0)
    (few : digitCount digits ≤ precision) (within : minPlace ≤ e + (zeros : Nat)) :
    ∃ moved ≤ zeros, roundToRange (digits * 10 ^ zeros) e =
      (digits * 10 ^ (zeros - moved), e + moved) := by
  rw [roundToRange]
  split
  · rename_i small
    rw [Bool.and_eq_true, decide_eq_true_eq, decide_eq_true_eq] at small
    exact ⟨(minPlace - e).toNat, by omega, roundAway_shift positive (by omega) e⟩
  · simp only [roundToPrecision]
    split
    · exact ⟨0, by omega, by simp⟩
    · rename_i many
      rw [digitCount_shift positive] at many
      have drop : digitCount (digits * 10 ^ zeros) - precision ≤ zeros := by
        rw [digitCount_shift positive]
        omega
      have short : digitCount (digits * 10 ^
          (zeros - (digitCount (digits * 10 ^ zeros) - precision))) ≤ precision := by
        rw [digitCount_shift positive, digitCount_shift positive]
        omega
      rw [roundAway_shift positive drop e]
      exact ⟨_, drop, if_pos short⟩

theorem leadingExponent_shift {c : Nat} (positive : c ≠ 0) (zeros : Nat) (e : Int) :
    leadingExponent (c * 10 ^ zeros) e = leadingExponent c (e + zeros) := by
  rw [leadingExponent, leadingExponent, digitCount_shift positive]
  omega

/-- As many trailing zeros are dropped as there are, unless the exponent becomes too great. -/
theorem dropZeros_reduced {c : Nat} (positive : c ≠ 0) {e : Int}
    (within : leadingExponent c e ≤ maxExponent) :
    (dropZeros (min (digitCount c) (maxExponent - e).toNat) c e).1 % 10 ≠ 0 := by
  obtain ⟨zeros, few, whole, place, left⟩ :=
    dropZeros_shift (min (digitCount c) (maxExponent - e).toNat) c e
  generalize (dropZeros (min (digitCount c) (maxExponent - e).toNat) c e).1 = rest at *
  rcases left with odd | all
  · exact odd
  · have count := digitCount_pos rest
    have positiveRest : rest ≠ 0 := by
      rintro rfl
      exact positive (whole.trans (Nat.zero_mul _))
    have digits := digitCount_shift positiveRest zeros
    rw [← whole] at digits
    -- all zeros but one digit are dropped, or the exponent is the greatest one
    have single : digitCount rest ≤ 1 := by
      rw [leadingExponent] at within
      omega
    rw [digitCount_le_iff rest Nat.one_pos] at single
    omega

/-- A number in range with few digits but for its zeros has a normal form of the same value that
keeps none of the zeros. -/
theorem normal_of_shift (n : Bool) {digits zeros : Nat} {e : Int} (positive : digits ≠ 0)
    (few : digitCount digits ≤ precision) (within : minPlace ≤ e + (zeros : Nat))
    (inRange : leadingExponent (digits * 10 ^ zeros) e ≤ maxExponent) :
    ∃ c' e', normal (.finite n (digits * 10 ^ zeros) e) = .ok (.finite n c' e') ∧ c' % 10 ≠ 0 ∧
      exactValue n c' e' = exactValue n (digits * 10 ^ zeros) e := by
  obtain ⟨moved, some, rounded⟩ := roundToRange_shift positive few within
  have whole : digits * 10 ^ zeros ≠ 0 := Nat.mul_ne_zero positive (by positivity)
  have kept : digits * 10 ^ (zeros - moved) ≠ 0 :=
    Nat.mul_ne_zero positive (by positivity)
  have lead : leadingExponent (digits * 10 ^ (zeros - moved)) (e + moved) =
      leadingExponent (digits * 10 ^ zeros) e := by
    rw [leadingExponent_shift positive, leadingExponent_shift positive]
    congr 1
    omega
  have within : ¬ maxExponent < leadingExponent (digits * 10 ^ zeros) e := by omega
  rw [normal, if_neg whole, if_neg within, rounded]
  simp only [if_neg kept, lead, if_neg within]
  refine ⟨_, _, rfl, dropZeros_reduced kept (by rw [lead]; omega), ?_⟩
  obtain ⟨dropped, _, whole, place, _⟩ := dropZeros_shift
    (min (digitCount (digits * 10 ^ (zeros - moved))) (maxExponent - (e + moved)).toNat)
    (digits * 10 ^ (zeros - moved)) (e + moved)
  rw [place, ← exactValue_shift, ← whole, exactValue_shift, exactValue_shift]
  congr 1
  omega

/-- A short number in range has a normal form of the same value, without trailing zeros. -/
theorem exists_normal_of_short {n : Bool} {c : Nat} {e : Int} (short : Short n c e)
    (fits : normal (.finite n c e) ≠ .error .overflow) :
    ∃ c' e', normal (.finite n c e) = .ok (.finite n c' e') ∧ Reduced n c' e' ∧
      exactValue n c' e' = exactValue n c e := by
  by_cases nought : c = 0
  · subst nought
    refine ⟨0, 0, normal_zero n e, Or.inr ⟨rfl, rfl, short.signed rfl⟩, ?_⟩
    rw [exactValue_zero, exactValue_zero]
  · have inRange : leadingExponent c e ≤ maxExponent := by
      by_contra beyond
      rw [normal, if_neg nought, if_pos (Int.not_le.mp beyond)] at fits
      exact fits rfl
    obtain ⟨digits, zeros, rfl, few, within⟩ := short.significant
    have positive : digits ≠ 0 := by
      rintro rfl
      exact nought (Nat.zero_mul _)
    obtain ⟨c', e', done, odd, same⟩ := normal_of_shift n positive few within inRange
    exact ⟨c', e', done, Or.inl odd, same⟩

theorem exactValue_eq_zero_iff (n : Bool) (c : Nat) (e : Int) :
    exactValue n c e = 0 ↔ c = 0 := by
  have unit : (10 : ℚ) ^ e ≠ 0 := by positivity
  cases n <;> simp [exactValue, unit]

theorem sign_eq_of_exactValue_eq {n n' : Bool} {c c' : Nat} {e e' : Int} (positive : c ≠ 0)
    (positive' : c' ≠ 0) (same : exactValue n c e = exactValue n' c' e') : n = n' := by
  have above := exactValue_pos positive e
  have above' := exactValue_pos positive' e'
  cases n <;> cases n'
  · rfl
  · rw [exactValue_neg] at same
    linarith
  · rw [exactValue_neg] at same
    linarith
  · rfl

/-- Of two coefficients of one number, the one with the greater exponent has no zeros to drop only
if their exponents are the same. -/
theorem eq_of_aligned {c c' : Nat} {e e' : Int} (odd : c % 10 ≠ 0) (lower : e ≤ e')
    (same : (c : ℚ) * 10 ^ e = c' * 10 ^ e') : c = c' ∧ e = e' := by
  rw [← aligned c' lower] at same
  have unit : (10 : ℚ) ^ e ≠ 0 := by positivity
  have whole : c = c' * 10 ^ (e' - e).toNat := by
    exact_mod_cast mul_right_cancel₀ unit same
  cases zeros : (e' - e).toNat with
  | zero =>
      rw [zeros, Nat.pow_zero, Nat.mul_one] at whole
      exact ⟨whole, by omega⟩
  | succ more =>
      rw [zeros, Nat.pow_succ, ← Nat.mul_assoc] at whole
      omega

/-- Numbers without trailing zeros are told by their values. -/
theorem eq_of_reduced {n n' : Bool} {c c' : Nat} {e e' : Int} (reduced : Reduced n c e)
    (reduced' : Reduced n' c' e') (same : exactValue n c e = exactValue n' c' e') :
    n = n' ∧ c = c' ∧ e = e' := by
  rcases reduced with odd | ⟨rfl, rfl, rfl⟩
  · rcases reduced' with odd' | ⟨rfl, rfl, rfl⟩
    · have sign := sign_eq_of_exactValue_eq (by omega) (by omega) same
      subst sign
      have magnitude : (c : ℚ) * 10 ^ e = c' * 10 ^ e' := by
        cases n <;> simpa [exactValue] using same
      refine ⟨rfl, ?_⟩
      rcases Int.le_total e e' with lower | higher
      · exact eq_of_aligned odd lower magnitude
      · obtain ⟨first, second⟩ := eq_of_aligned odd' higher magnitude.symm
        exact ⟨first.symm, second.symm⟩
    · rw [exactValue_zero, exactValue_eq_zero_iff] at same
      omega
  · rcases reduced' with odd' | ⟨rfl, rfl, rfl⟩
    · rw [exactValue_zero, eq_comm, exactValue_eq_zero_iff] at same
      omega
    · exact ⟨rfl, rfl, rfl⟩

/-- Rounding digits away leaves at most the others, or one digit more with zeros after it. -/
theorem roundAway_le {c : Nat} {e : Int} {drop kept : Nat} (few : digitCount c ≤ drop + kept) :
    (roundAway c e drop).1 ≤ 10 ^ kept := by
  rw [roundAway]
  split
  · exact Nat.zero_le _
  · apply roundHalfEven_le (by positivity)
    rw [← Nat.pow_add, Nat.add_comm]
    exact (lt_pow_digitCount c).le.trans (Nat.pow_le_pow_right (by decide) few)

theorem roundAway_snd (c : Nat) (e : Int) (drop : Nat) : (roundAway c e drop).2 = e + drop := by
  rw [roundAway]
  split
  · rfl
  · rfl

/-- A coefficient of at most a power of ten below the precision has few digits. -/
theorem digitCount_le_of_le_pow {c kept : Nat} (bound : c ≤ 10 ^ kept) (below : kept < precision) :
    digitCount c ≤ precision := by
  rw [digitCount_le_iff c (by decide)]
  exact lt_of_le_of_lt bound (Nat.pow_lt_pow_right (by decide) below)

/-- Rounding to the precision does so, and does not lower the exponent by more than was too much. -/
theorem roundToPrecision_bounds (c : Nat) (e : Int) :
    digitCount (roundToPrecision c e).1 ≤ precision ∧
      e + (digitCount c - precision : Nat) ≤ (roundToPrecision c e).2 := by
  simp only [roundToPrecision]
  split
  · rename_i few
    exact ⟨few, by simp only [Nat.sub_eq_zero_of_le few]; omega⟩
  · rename_i many
    have place := roundAway_snd c e (digitCount c - precision)
    split
    · rename_i few
      exact ⟨few, Int.le_of_eq place.symm⟩
    · -- the carry made one digit too many
      have bound : (roundAway c e (digitCount c - precision)).1 ≤ 10 ^ precision :=
        roundAway_le (by omega)
      have shorter : (roundAway c e (digitCount c - precision)).1 / 10 ≤ 10 ^ (precision - 1) :=
        Nat.div_le_of_le_mul bound
      exact ⟨digitCount_le_of_le_pow shorter (by decide), by simp only [place]; omega⟩

/-- A rounded coefficient has at most as many digits as the precision, none of them beyond the last
place of small numbers. -/
theorem roundToRange_bounds (c : Nat) (e : Int) :
    digitCount (roundToRange c e).1 ≤ precision ∧ minPlace ≤ (roundToRange c e).2 := by
  rw [roundToRange]
  split
  · rename_i small
    rw [Bool.and_eq_true, decide_eq_true_eq, decide_eq_true_eq, leadingExponent] at small
    have few : digitCount c ≤ (minPlace - e).toNat + 27 := by
      rw [minPlace, precision] at small ⊢
      omega
    refine ⟨digitCount_le_of_le_pow (roundAway_le few) (by decide), ?_⟩
    rw [roundAway_snd]
    omega
  · rename_i large
    rw [Bool.and_eq_true, decide_eq_true_eq, decide_eq_true_eq, leadingExponent] at large
    obtain ⟨few, place⟩ := roundToPrecision_bounds c e
    refine ⟨few, Int.le_trans ?_ place⟩
    have count := digitCount_pos c
    rw [minPlace, precision] at large ⊢
    omega

/-- Whether a decimal is its own normal form: a number without trailing zeros, within the precision
and the range of exponents, and a diagnostic that is not signaling with a short payload. -/
def IsNormal : Decimal → Prop
  | .finite _ c e => c = 0 ∧ e = 0 ∨
      c % 10 ≠ 0 ∧ digitCount c ≤ precision ∧ minPlace ≤ e ∧ leadingExponent c e ≤ maxExponent
  | .infinite _ => True
  | .nan _ signaling payload => signaling = false ∧ payload < 10 ^ precision

/-- What has a normal form is brought to one. -/
theorem isNormal_of_normal {d normalized : Decimal} (done : d.normal = .ok normalized) :
    normalized.IsNormal := by
  cases d with
  | infinite n =>
      cases done
      trivial
  | nan n signaling payload =>
      cases signaling with
      | true => cases done
      | false =>
          cases done
          exact ⟨rfl, Nat.mod_lt _ (by positivity)⟩
  | finite n c e =>
      rw [normal] at done
      split at done
      · cases done
        exact Or.inl ⟨rfl, rfl⟩
      split at done
      · cases done
      obtain ⟨few, place⟩ := roundToRange_bounds c e
      generalize roundToRange c e = rounded at done few place
      obtain ⟨c', e'⟩ := rounded
      simp only at done few place
      split at done
      · cases done
        exact Or.inl ⟨rfl, rfl⟩
      rename_i positive
      split at done
      · cases done
      rename_i inRange
      cases done
      have odd := dropZeros_reduced positive (Int.not_lt.mp inRange)
      obtain ⟨zeros, _, whole, moved, _⟩ :=
        dropZeros_shift (min (digitCount c') (maxExponent - e').toNat) c' e'
      generalize dropZeros (min (digitCount c') (maxExponent - e').toNat) c' e' = dropped at *
      have kept : dropped.1 ≠ 0 := by omega
      have count := digitCount_shift kept zeros
      have lead := leadingExponent_shift kept zeros e'
      rw [← whole] at count lead
      rw [← moved] at lead
      exact Or.inr ⟨odd, by omega, by omega, by rw [← lead]; omega⟩

/-- The zeros of a normal form may be written out: they are dropped again. -/
theorem normal_of_isNormal {n : Bool} {c : Nat} {e : Int} (isNormal : (finite n c e).IsNormal) :
    normal (.finite n (c * 10 ^ e.toNat) (min e 0)) = .ok (.finite n c e) := by
  rcases isNormal with ⟨rfl, rfl⟩ | ⟨odd, few, place, lead⟩
  · rfl
  · -- the coefficient is short but for the zeros, so they are all that is dropped
    have positive : c ≠ 0 := by omega
    have back : min e 0 + (e.toNat : Int) = e := by omega
    have inRange : leadingExponent (c * 10 ^ e.toNat) (min e 0) ≤ maxExponent := by
      rw [leadingExponent_shift positive, back]
      exact lead
    obtain ⟨c', e', done, oddOther, same⟩ :=
      normal_of_shift n positive few (by rw [back]; exact place) inRange
    rw [exactValue_shift, back] at same
    obtain ⟨-, rfl, rfl⟩ := eq_of_reduced (Or.inl oddOther) (Or.inl odd) same
    exact done

end TokenTable.Decimal
