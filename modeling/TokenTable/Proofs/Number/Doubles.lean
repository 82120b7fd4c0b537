import Mathlib.Tactic.FieldSimp
import Mathlib.Tactic.Linarith
import TokenTable.Number.Binary64.Basic
import TokenTable.Proofs.Number.Exact

/-! # Rounding to doubles

A number is rounded on the grid of its own binary place (`Rounds`), so rounding does not carry it
past any double (`pack_le`, `le_pack`). Doubles are compared by their exact values
(`below_finite_iff`). Main statement: `not_below_add`, a sum with a number that is not positive is
not greater than the double.
-/

namespace TokenTable.Binary64

/-- The number `± significand · 2 ^ exponent`. -/
def exactValue (negative : Bool) (significand : Nat) (exponent : Int) : ℚ :=
  (if negative then -1 else 1) * (significand * 2 ^ exponent)

/-- A double fits its format: the significand has at most 53 bits, and the exponent is within
range. -/
def IsDouble : Binary64 → Prop
  | .finite _ m e => m < 2 ^ significandBits ∧ minExponent ≤ e ∧ e ≤ maxExponent
  | _ => True

/-- A whole number of places that a positive number is rounded to. It lies between the same whole
numbers as the number does, and the place is the one of the last bit of a full significand, unless
that is beyond the smallest place. -/
structure Rounds (q : ℚ) (rounded : Nat) (place : Int) : Prop where
  least : minExponent ≤ place
  full : minExponent < place → (2 : ℚ) ^ (place + 52) ≤ q
  fits : q < (2 : ℚ) ^ (place + 53)
  above : ∀ k : Nat, k * (2 : ℚ) ^ place ≤ q → k ≤ rounded
  below : ∀ k : Nat, q ≤ k * (2 : ℚ) ^ place → rounded ≤ k

/-- The quotient of a scaled pair is the scaled quotient. -/
theorem scaled_spec (num : Nat) {den : Nat} (positive : 0 < den) (shift : Int) :
    0 < (scaled num den shift).2 ∧
      ((scaled num den shift).1 : ℚ) * 2 ^ shift =
        (num : ℚ) / den * (scaled num den shift).2 := by
  have nonzero : (den : ℚ) ≠ 0 := Nat.cast_ne_zero.mpr (Nat.ne_of_gt positive)
  rw [scaled]
  split
  · rename_i up
    have exponent : ((2 : ℚ)) ^ shift = 2 ^ shift.toNat := by
      rw [← zpow_natCast, Int.toNat_of_nonneg up]
    refine ⟨Nat.mul_pos positive (Nat.two_pow_pos _), ?_⟩
    rw [exponent]
    push_cast
    field_simp
  · rename_i down
    have exponent : ((2 : ℚ)) ^ shift = (2 ^ (-shift).toNat)⁻¹ := by
      rw [← zpow_natCast, Int.toNat_of_nonneg (by omega), zpow_neg, inv_inv]
    refine ⟨positive, ?_⟩
    rw [exponent]
    push_cast
    field_simp

theorem pow_log2_le {n : Nat} (nonzero : n ≠ 0) : (2 : ℚ) ^ (Nat.log2 n : Int) ≤ n := by
  rw [zpow_natCast]
  exact_mod_cast Nat.log2_self_le nonzero

theorem lt_pow_log2 (n : Nat) : (n : ℚ) < 2 ^ ((Nat.log2 n : Int) + 1) := by
  rw [← Nat.cast_succ, zpow_natCast]
  exact_mod_cast Nat.lt_log2_self

/-- The lengths of two numbers tell their quotient up to one bit. -/
theorem quotient_bounds {num den : Nat} (nonzero : num ≠ 0) (positive : 0 < den) {guess : Int}
    (guessed : (Nat.log2 num : Int) - Nat.log2 den = guess) :
    (2 : ℚ) ^ (guess - 1) ≤ (num : ℚ) / den ∧ (num : ℚ) / den < 2 ^ (guess + 1) := by
  have above : (0 : ℚ) < den := Nat.cast_pos.mpr positive
  constructor
  · rw [le_div_iff₀ above]
    calc (2 : ℚ) ^ (guess - 1) * den
      _ ≤ 2 ^ (guess - 1) * 2 ^ ((Nat.log2 den : Int) + 1) := by
        gcongr
        exact (lt_pow_log2 den).le
      _ = 2 ^ (Nat.log2 num : Int) := by
        rw [← zpow_add₀ two_ne_zero]
        congr 1
        omega
      _ ≤ num := pow_log2_le nonzero
  · rw [div_lt_iff₀ above]
    calc (num : ℚ) < 2 ^ ((Nat.log2 num : Int) + 1) := lt_pow_log2 num
      _ = 2 ^ (guess + 1) * 2 ^ (Nat.log2 den : Int) := by
        rw [← zpow_add₀ two_ne_zero]
        congr 1
        omega
      _ ≤ 2 ^ (guess + 1) * den := by
        gcongr
        exact pow_log2_le (Nat.ne_of_gt positive)

/-- The leading bit of a quotient tells its last place. -/
theorem exists_lead {num den : Nat} (nonzero : num ≠ 0) (positive : 0 < den) :
    ∃ lead : Int, lastPlace num den = max minExponent (lead - 52) ∧
      (2 : ℚ) ^ lead ≤ (num : ℚ) / den ∧ (num : ℚ) / den < 2 ^ (lead + 1) := by
  rw [lastPlace]
  generalize guessed : (Nat.log2 num : Int) - Nat.log2 den = guess
  obtain ⟨least, most⟩ := quotient_bounds nonzero positive guessed
  obtain ⟨bottom, ratio⟩ := scaled_spec num positive guess
  have bottomQ : (0 : ℚ) < (scaled num den guess).2 := Nat.cast_pos.mpr bottom
  by_cases reaches : (scaled num den guess).2 ≤ (scaled num den guess).1
  · refine ⟨guess, by simp only [reaches, ↓reduceIte]; rfl, ?_, most⟩
    have reachesQ : ((scaled num den guess).2 : ℚ) ≤ (scaled num den guess).1 := by
      exact_mod_cast reaches
    refine le_of_mul_le_mul_right ?_ bottomQ
    rw [← ratio, mul_comm]
    gcongr
  · refine ⟨guess - 1, by simp only [reaches, ↓reduceIte]; rfl, least, ?_⟩
    have missesQ : ((scaled num den guess).1 : ℚ) < (scaled num den guess).2 := by
      exact_mod_cast Nat.lt_of_not_le reaches
    refine lt_of_mul_lt_mul_right ?_ bottomQ.le
    rw [← ratio, Int.sub_add_cancel, mul_comm (2 ^ guess)]
    gcongr

/-- A positive quotient is rounded on the grid of its last place. -/
theorem exists_rounds (negative : Bool) {num den : Nat} (nonzero : num ≠ 0)
    (positive : 0 < den) :
    ∃ rounded place, nearest negative num den = pack negative rounded place ∧
      Rounds ((num : ℚ) / den) rounded place := by
  obtain ⟨lead, last, least, most⟩ := exists_lead nonzero positive
  obtain ⟨bottom, ratio⟩ := scaled_spec num positive (lastPlace num den)
  have bottomQ : (0 : ℚ) < (scaled num den (lastPlace num den)).2 := Nat.cast_pos.mpr bottom
  have unit : (0 : ℚ) < 2 ^ lastPlace num den := by positivity
  refine ⟨roundHalfEven (scaled num den (lastPlace num den)).1
    (scaled num den (lastPlace num den)).2, lastPlace num den, ?_, ?_, ?_, ?_, ?_, ?_⟩
  · rw [nearest, if_neg nonzero]
  · omega
  · intro higher
    have same : lastPlace num den + 52 = lead := by omega
    rw [same]
    exact least
  · exact most.trans_le (zpow_le_zpow_right₀ one_le_two (by omega))
  · intro k reaches
    apply le_roundHalfEven bottom
    have scaledUp := mul_le_mul_of_nonneg_right reaches bottomQ.le
    rw [← ratio, mul_right_comm] at scaledUp
    exact_mod_cast le_of_mul_le_mul_right scaledUp unit
  · intro k within
    apply roundHalfEven_le bottom
    have scaledUp := mul_le_mul_of_nonneg_right within bottomQ.le
    rw [← ratio, mul_right_comm] at scaledUp
    exact_mod_cast le_of_mul_le_mul_right scaledUp unit

/-- A scaled positive number is rounded on the grid of its last place. -/
theorem ofScaled_rounds (negative : Bool) {magnitude : Nat} (nonzero : magnitude ≠ 0)
    (exponent : Int) :
    ∃ rounded place, ofScaled negative magnitude exponent = pack negative rounded place ∧
      Rounds (magnitude * 2 ^ exponent) rounded place := by
  rw [ofScaled]
  by_cases up : 0 ≤ exponent
  · have quotient : (magnitude : ℚ) * 2 ^ exponent =
        (magnitude * 2 ^ exponent.toNat : Nat) / (1 : Nat) := by
      conv_lhs => rw [← Int.toNat_of_nonneg up, zpow_natCast]
      simp
    rw [if_pos up, quotient]
    exact exists_rounds negative (Nat.mul_ne_zero nonzero (Nat.ne_of_gt (Nat.two_pow_pos _)))
      Nat.one_pos
  · have quotient : (magnitude : ℚ) * 2 ^ exponent =
        magnitude / (2 ^ (-exponent).toNat : Nat) := by
      have opposite : exponent = -((-exponent).toNat : Int) := by omega
      conv_lhs => rw [opposite, zpow_neg, zpow_natCast, ← div_eq_mul_inv]
      simp
    rw [if_neg up, quotient]
    exact exists_rounds negative nonzero (Nat.two_pow_pos _)

/-- A rounded number has at most one bit too many. -/
theorem Rounds.rounded_le {q : ℚ} {rounded : Nat} {place : Int}
    (rounds : Rounds q rounded place) : rounded ≤ 2 ^ 53 := by
  apply rounds.below
  rw [Nat.cast_pow, Nat.cast_ofNat, ← zpow_natCast, ← zpow_add₀ two_ne_zero, Int.add_comm]
  exact rounds.fits.le

/-- Packing keeps the number, unless it is too great. -/
theorem pack_spec (negative : Bool) {rounded : Nat} (fits : rounded ≤ 2 ^ 53) (place : Int) :
    ∃ m e, pack negative rounded place =
        (if maxExponent < e then .infinite negative else .finite negative m e) ∧
      (m : ℚ) * 2 ^ e = rounded * 2 ^ place ∧ (rounded < 2 ^ 53 ∧ e = place ∨
        rounded = 2 ^ 53 ∧ e = place + 1) := by
  rw [pack, significandBits]
  by_cases short : rounded < 2 ^ 53
  · exact ⟨rounded, place, by rw [if_pos short], rfl, Or.inl ⟨short, rfl⟩⟩
  · have grown : rounded = 2 ^ 53 := Nat.le_antisymm fits (Nat.le_of_not_lt short)
    refine ⟨rounded / 2, place + 1, by rw [if_neg short], ?_, Or.inr ⟨grown, rfl⟩⟩
    rw [grown, zpow_add_one₀ two_ne_zero]
    norm_num
    ring

/-- A significand brought to a lower exponent. -/
theorem lowered (m : Nat) {low e : Int} (within : low ≤ e) :
    ((m * 2 ^ (e - low).toNat : Nat) : ℚ) * 2 ^ low = m * 2 ^ e :=
  mul_pow_sub 2 (by decide) m within

/-- A number below a significand of 53 bits. -/
theorem lt_pow_of_fits {m : Nat} (fits : m < 2 ^ 53) (e : Int) :
    (m : ℚ) * 2 ^ e < 2 ^ (e + 53) := by
  rw [zpow_add₀ two_ne_zero, mul_comm]
  gcongr
  exact_mod_cast fits

/-- A positive number that is not greater than a double is not rounded beyond it. -/
theorem pack_le (negative : Bool) {q : ℚ} {rounded m : Nat} {place e : Int}
    (rounds : Rounds q rounded place) (fits : m < 2 ^ 53) (least : minExponent ≤ e)
    (most : e ≤ maxExponent) (within : q ≤ m * 2 ^ e) :
    ∃ m' e', pack negative rounded place = .finite negative m' e' ∧
      (m' : ℚ) * 2 ^ e' ≤ m * 2 ^ e := by
  -- A coarser grid than the double's would need a number beyond it.
  have placed : place ≤ e := by
    by_contra higher
    have full := rounds.full (by omega)
    have short : (2 : ℚ) ^ (e + 53) ≤ 2 ^ (place + 52) :=
      zpow_le_zpow_right₀ one_le_two (by omega)
    linarith [lt_pow_of_fits fits e]
  have bound := rounds.below (m * 2 ^ (e - place).toNat) (by rwa [lowered m placed])
  obtain ⟨m', e', packed, same, size⟩ := pack_spec negative rounds.rounded_le place
  have inRange : ¬ maxExponent < e' := by
    rcases size with ⟨_, rfl⟩ | ⟨grown, rfl⟩
    · omega
    · -- On the coarsest grid the double bounds the significand itself, which cannot have grown.
      intro beyond
      have last : e - place = 0 := by omega
      rw [last, Int.toNat_zero, Nat.pow_zero, Nat.mul_one] at bound
      omega
  refine ⟨m', e', by rw [packed, if_neg inRange], ?_⟩
  rw [same, ← lowered m placed]
  gcongr

/-- A number that is not less than a double is not rounded below it. -/
theorem le_pack {negative : Bool} {q : ℚ} {rounded m m' : Nat} {place e e' : Int}
    (rounds : Rounds q rounded place) (fits : m < 2 ^ 53) (reaches : (m : ℚ) * 2 ^ e ≤ q)
    (least : minExponent ≤ e) (packed : pack negative rounded place = .finite negative m' e') :
    (m : ℚ) * 2 ^ e ≤ m' * 2 ^ e' := by
  obtain ⟨_, _, given, same, _⟩ := pack_spec negative rounds.rounded_le place
  rw [given] at packed
  split at packed
  · cases packed
  cases packed
  rw [same]
  by_cases placed : place ≤ e
  · have bound := rounds.above (m * 2 ^ (e - place).toNat) (by rwa [lowered m placed])
    rw [← lowered m placed]
    gcongr
  · -- On a coarser grid than the double's the significand is full.
    have bound := rounds.above (2 ^ 52) (by
      rw [Nat.cast_pow, Nat.cast_ofNat, ← zpow_natCast, ← zpow_add₀ two_ne_zero, Int.add_comm]
      exact rounds.full (by omega))
    calc (m : ℚ) * 2 ^ e ≤ 2 ^ (e + 53) := (lt_pow_of_fits fits e).le
      _ ≤ 2 ^ (place + 52) := zpow_le_zpow_right₀ one_le_two (by omega)
      _ = (2 ^ 52 : Nat) * 2 ^ place := by
        rw [zpow_add₀ two_ne_zero, mul_comm]
        norm_num
      _ ≤ rounded * 2 ^ place := by gcongr

/-- A double is kept when it is rounded, however it is scaled. -/
theorem ofScaled_eq_of_full (negative : Bool) {magnitude m : Nat} {exponent e : Int}
    (full : 2 ^ 52 ≤ m) (fits : m < 2 ^ 53) (least : minExponent ≤ e) (most : e ≤ maxExponent)
    (same : (magnitude : ℚ) * 2 ^ exponent = m * 2 ^ e) :
    ofScaled negative magnitude exponent = .finite negative m e := by
  have reaches : (2 : ℚ) ^ (e + 52) ≤ m * 2 ^ e := by
    rw [zpow_add₀ two_ne_zero, mul_comm]
    gcongr
    exact_mod_cast full
  have nonzero : magnitude ≠ 0 := by
    rintro rfl
    have positive : (0 : ℚ) < 2 ^ (e + 52) := by positivity
    rw [Nat.cast_zero, zero_mul] at same
    linarith
  obtain ⟨rounded, place, packed, rounds⟩ := ofScaled_rounds negative nonzero exponent
  rw [same] at rounds
  have placed : place = e := by
    apply Int.le_antisymm
    · by_contra coarser
      have short : (2 : ℚ) ^ (e + 53) ≤ 2 ^ (place + 52) :=
        zpow_le_zpow_right₀ one_le_two (by omega)
      linarith [rounds.full (by omega), lt_pow_of_fits fits e]
    · by_contra finer
      have short : (2 : ℚ) ^ (place + 53) ≤ 2 ^ (e + 52) :=
        zpow_le_zpow_right₀ one_le_two (by omega)
      linarith [rounds.fits]
  subst placed
  have kept : rounded = m := Nat.le_antisymm (rounds.below m le_rfl) (rounds.above m le_rfl)
  have inRange : ¬ maxExponent < place := by omega
  rw [packed, kept, pack, significandBits, if_pos fits]
  exact if_neg inRange

/-- A whole number that fits a significand has a double next to it. -/
theorem ofInt?_natCast {n : Nat} (fits : n < 2 ^ 53) : (ofInt? n).isNone = false := by
  obtain ⟨m, e, finite⟩ : ∃ m e, nearest false n 1 = .finite false m e := by
    by_cases nonzero : n = 0
    · rw [nonzero]
      exact ⟨_, _, nearest_zero false 1⟩
    · obtain ⟨rounded, place, packed, rounds⟩ := exists_rounds false nonzero Nat.one_pos
      obtain ⟨m, e, finite, _⟩ := pack_le false rounds fits (by decide : minExponent ≤ 0)
        (by decide) (by simp)
      exact ⟨m, e, packed.trans finite⟩
  have positive : ¬ (n : Int) < 0 := by omega
  rw [ofInt?, Int.natAbs_natCast, decide_eq_false positive, finite]
  rfl

theorem aligned_spec (negative : Bool) (m : Nat) {low e : Int} (within : low ≤ e) :
    (aligned negative m e low : ℚ) * 2 ^ low = exactValue negative m e := by
  rw [aligned, exactValue, ← lowered m within]
  cases negative <;> simp

/-- Doubles are compared by their exact values. -/
theorem below_finite_iff (n n' : Bool) (m m' : Nat) (e e' : Int) :
    below (.finite n m e) (.finite n' m' e') = true ↔ exactValue n m e < exactValue n' m' e' := by
  have unit : (0 : ℚ) < 2 ^ min e e' := by positivity
  rw [← aligned_spec n m (Int.min_le_left e e'), ← aligned_spec n' m' (Int.min_le_right e e'),
    mul_lt_mul_iff_left₀ unit, Int.cast_lt, below, compare?]
  simp [compare_lt_iff_lt]

theorem exactValue_zero (negative : Bool) (e : Int) : exactValue negative 0 e = 0 := by
  simp [exactValue]

/-- A positive double is its magnitude, a double that is not positive has it opposite. -/
theorem exactValue_false (m : Nat) (e : Int) : exactValue false m e = m * 2 ^ e := one_mul _

theorem exactValue_true (m : Nat) (e : Int) : exactValue true m e = -(m * 2 ^ e) := neg_one_mul _

/-- A positive number that is not greater than a double is not greater when it is rounded. -/
theorem not_below_ofScaled {n : Bool} {m magnitude : Nat} {e exponent : Int}
    (double : IsDouble (.finite n m e)) (nonzero : magnitude ≠ 0)
    (within : (magnitude : ℚ) * 2 ^ exponent ≤ exactValue n m e) :
    below (.finite n m e) (ofScaled false magnitude exponent) = false := by
  obtain ⟨fits, least, most⟩ := double
  obtain ⟨rounded, place, same, rounds⟩ := ofScaled_rounds false nonzero exponent
  have positive : (0 : ℚ) < magnitude * 2 ^ exponent := by positivity
  cases n with
  | true =>
      rw [exactValue_true] at within
      have opposite : (0 : ℚ) ≤ m * 2 ^ e := by positivity
      linarith
  | false =>
      rw [exactValue_false] at within
      obtain ⟨m', e', packed, bound⟩ := pack_le false rounds fits least most within
      rw [same, packed, ← Bool.not_eq_true, below_finite_iff, exactValue_false, exactValue_false,
        not_lt]
      exact bound

/-- A negative number that is not greater than a double is not greater when it is rounded. -/
theorem not_below_ofScaled_negative {n : Bool} {m magnitude : Nat} {e exponent : Int}
    (double : IsDouble (.finite n m e)) (nonzero : magnitude ≠ 0)
    (within : -((magnitude : ℚ) * 2 ^ exponent) ≤ exactValue n m e) :
    below (.finite n m e) (ofScaled true magnitude exponent) = false := by
  obtain ⟨fits, least, _⟩ := double
  obtain ⟨rounded, place, same, rounds⟩ := ofScaled_rounds true nonzero exponent
  obtain ⟨m', e', packed, _⟩ := pack_spec true rounds.rounded_le place
  rw [same, packed]
  by_cases beyond : maxExponent < e'
  · rw [if_pos beyond]
    rfl
  · rw [if_neg beyond] at packed ⊢
    rw [← Bool.not_eq_true, below_finite_iff, exactValue_true, not_lt]
    cases n with
    | false =>
        rw [exactValue_false]
        have first : (0 : ℚ) ≤ m * 2 ^ e := by positivity
        have second : (0 : ℚ) ≤ m' * 2 ^ e' := by positivity
        linarith
    | true =>
        rw [exactValue_true, neg_le_neg_iff] at within ⊢
        exact le_pack rounds fits within least packed

/-- The case of finite numbers, by the sign of the exact sum. -/
theorem not_below_add_finite {n n' : Bool} {m m' : Nat} {e e' : Int}
    (double : IsDouble (.finite n m e)) (notPositive : exactValue n' m' e' ≤ 0) :
    below (.finite n m e) (add (.finite n m e) (.finite n' m' e')) = false := by
  have total : ((aligned n m e (min e e') + aligned n' m' e' (min e e') : Int) : ℚ) *
      2 ^ min e e' ≤ exactValue n m e := by
    rw [Int.cast_add, add_mul, aligned_spec n m (Int.min_le_left e e'),
      aligned_spec n' m' (Int.min_le_right e e')]
    linarith
  rw [add]
  generalize aligned n m e (min e e') + aligned n' m' e' (min e e') = sum at total
  rcases Int.lt_trichotomy sum 0 with negative | rfl | positive
  · have magnitude : (sum : ℚ) = -(sum.natAbs : ℚ) := by
      rw [Nat.cast_natAbs, abs_of_neg negative, Int.cast_neg, neg_neg]
    rw [magnitude, neg_mul] at total
    simp only [Int.ne_of_lt negative, ↓reduceIte, negative, decide_true]
    exact not_below_ofScaled_negative double (Int.natAbs_ne_zero.mpr (Int.ne_of_lt negative)) total
  · simp only [↓reduceIte]
    rw [← Bool.not_eq_true, below_finite_iff, exactValue_zero, not_lt]
    simpa using total
  · have magnitude : (sum : ℚ) = sum.natAbs := by
      rw [Nat.cast_natAbs, abs_of_pos positive]
    rw [magnitude] at total
    simp only [Int.ne_of_gt positive, ↓reduceIte, Int.not_lt.mpr positive.le, decide_false]
    exact not_below_ofScaled double (Int.natAbs_ne_zero.mpr (Int.ne_of_gt positive)) total

/-- **Adding what is not positive makes no double greater**, although the sum is rounded. -/
theorem not_below_add {x y : Binary64} (double : IsDouble x) (notPositive : below zero y = false) :
    below x (add x y) = false := by
  cases y with
  | nan => cases x <;> rfl
  | infinite n =>
      cases n
      · cases notPositive
      · cases x with
        | infinite n => cases n <;> rfl
        | _ => rfl
  | finite n' m' e' =>
      cases x with
      | nan => rfl
      | infinite n => cases n <;> rfl
      | finite n m e =>
          apply not_below_add_finite double
          rw [zero, ← Bool.not_eq_true, below_finite_iff, exactValue_zero, not_lt] at notPositive
          exact notPositive

end TokenTable.Binary64
