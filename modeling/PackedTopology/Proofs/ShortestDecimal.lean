import PackedTopology.Proofs.Rounding

/-!
# The shortest decimal reads back

Of the two decimals around a number on a grid one reads back, if the grid is
finer than the interval of the number is wide.  Seventeen digits are always
enough for that: the grid of the seventeenth digit is that fine for a whole
significand, and finer still just above a power of two.  So the search for the
fewest digits ends.
-/

namespace PackedTopology

open Scalar

namespace Scalar

variable {magnitude : ℕ}

theorem number_div (magnitude : ℕ) :
    number magnitude / 2 ^ exponent magnitude = significand magnitude :=
  mul_div_cancel_right₀ _ (two_zpow_pos _).ne'

theorem quotient_eq (magnitude : ℕ) :
    ((quotient magnitude).1 : ℚ) / (quotient magnitude).2 = number magnitude := by
  have hscaled := scaled_quotient (significand magnitude) 1 (-exponent magnitude)
  rw [neg_neg, Nat.one_mul, Nat.cast_one, div_one, zpow_neg, div_inv_eq_mul]
    at hscaled
  exact hscaled

theorem quotient_pos (hpositive : 0 < magnitude) :
    0 < (quotient magnitude).1 ∧ 0 < (quotient magnitude).2 :=
  ⟨Nat.mul_pos (significand_pos hpositive) (Nat.pow_pos (by decide)),
    Nat.pow_pos (by decide)⟩

end Scalar

namespace Decimal

variable {decimal : Decimal} {magnitude : ℕ} {tie : Tie} {scale : ℤ}

/-- The rational that a decimal stands for. -/
def value (decimal : Decimal) : ℚ :=
  decimal.digits * 10 ^ decimal.scale

theorem readsBack_iff (hpositive : 0 < magnitude) :
    decimal.ReadsBack magnitude ↔ Reaches magnitude decimal.value := by
  have hdenominator : 0 < Nat.pow 10 (-decimal.scale).toNat :=
    Nat.pow_pos (by decide)
  rw [ReadsBack, quotient, roundsTo_iff hpositive hdenominator, decimal_quotient,
    value]

theorem readsBack_of_onGrid (hfound : onGrid tie magnitude scale = some decimal) :
    decimal.ReadsBack magnitude := by
  rw [onGrid] at hfound
  simp only at hfound
  split at hfound
  · rename_i hbelow
    cases hfound
    exact hbelow.1
  · split at hfound
    · rename_i habove
      cases hfound
      exact habove
    · cases hfound

theorem grid_quotient (magnitude : ℕ) (scale : ℤ) :
    (((Scalar.quotient magnitude).1 * Nat.pow 10 (-scale).toNat : ℕ) : ℚ) /
        ((Scalar.quotient magnitude).2 * Nat.pow 10 scale.toNat : ℕ) =
      number magnitude / 10 ^ scale := by
  have hscaled := quotient_scaled_by 10 (Scalar.quotient magnitude).1
    (Scalar.quotient magnitude).2 scale
  rwa [quotient_eq] at hscaled

theorem unit_pos (hpositive : 0 < magnitude) (scale : ℤ) :
    0 < (Scalar.quotient magnitude).2 * Nat.pow 10 scale.toNat :=
  Nat.mul_pos (quotient_pos hpositive).2 (Nat.pow_pos (by decide))

/-- The two neighbours of a number on a grid are all that is looked at. -/
theorem exists_neighbours (hpositive : 0 < magnitude)
    (hnone : onGrid tie magnitude scale = none) :
    ∃ digits : ℕ, (digits : ℚ) * 10 ^ scale ≤ number magnitude ∧
      number magnitude < (digits + 1 : ℕ) * 10 ^ scale ∧
      ¬Reaches magnitude (digits * 10 ^ scale) ∧
      ¬Reaches magnitude ((digits + 1 : ℕ) * 10 ^ scale) := by
  obtain ⟨top, htop⟩ : ∃ t, (Scalar.quotient magnitude).1 *
    Nat.pow 10 (-scale).toNat = t := ⟨_, rfl⟩
  obtain ⟨bottom, hbottom⟩ : ∃ b, (Scalar.quotient magnitude).2 *
    Nat.pow 10 scale.toNat = b := ⟨_, rfl⟩
  have hquotient := grid_quotient magnitude scale
  have hsome := unit_pos hpositive scale
  rw [htop, hbottom] at hquotient
  rw [hbottom] at hsome
  have hsome' : (0 : ℚ) < bottom := by exact_mod_cast hsome
  rw [onGrid] at hnone
  simp only [htop, hbottom] at hnone
  have habove : ¬ReadsBack ⟨top / bottom + 1, scale⟩ magnitude := by
    intro habove
    rw [if_pos habove] at hnone
    split at hnone <;> cases hnone
  have hbelow : ¬ReadsBack ⟨top / bottom, scale⟩ magnitude := by
    intro hbelow
    rw [if_pos ⟨hbelow, .inr habove⟩] at hnone
    cases hnone
  rw [readsBack_iff hpositive] at habove hbelow
  refine ⟨top / bottom, ?_, ?_, hbelow, habove⟩
  · rw [← le_div_iff₀ (ten_zpow_pos scale), ← hquotient, le_div_iff₀ hsome']
    exact_mod_cast Nat.div_mul_le_self top bottom
  · rw [← div_lt_iff₀ (ten_zpow_pos scale), ← hquotient, div_lt_iff₀ hsome']
    exact_mod_cast Nat.lt_mul_of_div_lt (Nat.lt_succ_self _) hsome

theorem reaches_of_lt {x : ℚ}
    (hlow : (significand magnitude : ℚ) - reachBelow magnitude / 4 <
      x / 2 ^ exponent magnitude)
    (hhigh : x / 2 ^ exponent magnitude < significand magnitude + 1 / 2) :
    Reaches magnitude x where
  low := hlow.le
  high := hhigh.le
  even_of_end hend := by
    rcases hend with hend | hend
    · exact absurd hend hlow.ne'
    · exact absurd hend hhigh.ne

/-- A grid that is finer than the interval of a number has a decimal that reads
back. -/
theorem onGrid_ne_none (hpositive : 0 < magnitude)
    (hfine : (10 : ℚ) ^ scale <
      (reachBelow magnitude / 4 + 1 / 2) * 2 ^ exponent magnitude) :
    onGrid tie magnitude scale ≠ none := by
  intro hnone
  obtain ⟨digits, hbelow, habove, hnotBelow, hnotAbove⟩ :=
    exists_neighbours hpositive hnone
  have hunit := two_zpow_pos (exponent magnitude)
  have hnumber := number_div magnitude
  have hreach : (0 : ℚ) ≤ reachBelow magnitude := Nat.cast_nonneg _
  have hsucc : ((digits + 1 : ℕ) : ℚ) * 10 ^ scale / 2 ^ exponent magnitude =
      digits * 10 ^ scale / 2 ^ exponent magnitude +
        10 ^ scale / 2 ^ exponent magnitude := by
    rw [Nat.cast_add, Nat.cast_one, add_mul, one_mul, add_div]
  have hbelow' := div_le_div_of_nonneg_right hbelow hunit.le
  have habove' := div_lt_div_of_pos_right habove hunit
  rw [hnumber] at hbelow' habove'
  rw [← div_lt_iff₀ hunit] at hfine
  have hfar : (digits : ℚ) * 10 ^ scale / 2 ^ exponent magnitude ≤
      significand magnitude - reachBelow magnitude / 4 := by
    by_contra hnear
    exact hnotBelow (reaches_of_lt (not_le.mp hnear) (by linarith))
  have hfar' : (significand magnitude : ℚ) + 1 / 2 ≤
      (digits + 1 : ℕ) * 10 ^ scale / 2 ^ exponent magnitude := by
    by_contra hnear
    exact hnotAbove (reaches_of_lt (by linarith) (not_le.mp hnear))
  linarith

/-! ## Seventeen digits -/

theorem ten_zpow_le_of_mul {tens twos : ℤ} {count : ℕ} (hcount : count ≠ 0)
    (hpowers : (10 : ℚ) ^ (tens * count) ≤ 2 ^ (twos * count)) :
    (10 : ℚ) ^ tens ≤ 2 ^ twos := by
  rw [zpow_mul, zpow_mul, zpow_natCast, zpow_natCast] at hpowers
  exact le_of_pow_le_pow_left₀ hcount (two_zpow_pos twos).le hpowers

/-- The guess at a power of ten, given one of two, is at most one too high. -/
theorem ten_zpow_guess_le {power : ℤ} (hpower : -1100 ≤ power) :
    (10 : ℚ) ^ (power * 1233 / 4096 - 1) ≤ 2 ^ power := by
  -- The logarithm of two lies between 1233 / 4096 and 28 / 93.
  rcases Int.le_total 0 power with hpositive | hnegative
  · have hstep : (10 : ℚ) ^ (1233 : ℤ) ≤ 2 ^ (4096 : ℤ) := by
      have hnat : 10 ^ 1233 ≤ 2 ^ 4096 := by decide +kernel
      exact_mod_cast hnat
    apply @ten_zpow_le_of_mul _ _ 4096 (by decide)
    calc (10 : ℚ) ^ ((power * 1233 / 4096 - 1) * (4096 : ℕ))
        ≤ 10 ^ (1233 * power) :=
          zpow_le_zpow_right₀ (by norm_num) (by push_cast; omega)
      _ = (10 ^ (1233 : ℤ)) ^ power := zpow_mul _ _ _
      _ ≤ (2 ^ (4096 : ℤ)) ^ power :=
          zpow_le_zpow_left₀ hpositive (ten_zpow_pos _).le hstep
      _ = 2 ^ (power * (4096 : ℕ)) := by
          rw [← zpow_mul, mul_comm]
          rfl
  · obtain ⟨count, hcount⟩ :=
      Int.eq_ofNat_of_zero_le (Int.neg_nonneg_of_nonpos hnegative)
    obtain rfl : power = -(count : ℤ) := by omega
    have hstep : (2 : ℚ) ^ (93 * count) ≤ 10 ^ (28 * count) := by
      rw [pow_mul, pow_mul]
      exact pow_le_pow_left₀ (by norm_num) (by norm_num) count
    apply @ten_zpow_le_of_mul _ _ 93 (by decide)
    calc (10 : ℚ) ^ ((-(count : ℤ) * 1233 / 4096 - 1) * (93 : ℕ))
        ≤ 10 ^ (-((28 * count : ℕ) : ℤ)) :=
          zpow_le_zpow_right₀ (by norm_num) (by push_cast; omega)
      _ ≤ 2 ^ (-((93 * count : ℕ) : ℤ)) := by
          rw [zpow_neg, zpow_neg, zpow_natCast, zpow_natCast]
          exact inv_anti₀ (by positivity) hstep
      _ = 2 ^ (-(count : ℤ) * (93 : ℕ)) := by
          congr 1
          push_cast
          ring

theorem exceeds_iff (hpositive : 0 < magnitude) (power : ℤ) :
    (Scalar.quotient magnitude).1 * Nat.pow 10 (-power).toNat <
        (Scalar.quotient magnitude).2 * Nat.pow 10 power.toNat ↔
      number magnitude < 10 ^ power := by
  have hsome : (0 : ℚ) <
      ((Scalar.quotient magnitude).2 * Nat.pow 10 power.toNat : ℕ) := by
    exact_mod_cast unit_pos hpositive power
  rw [← div_lt_one (ten_zpow_pos power), ← grid_quotient, div_lt_one hsome]
  exact_mod_cast Iff.rfl

theorem log2_quotient (magnitude : ℕ) :
    -1100 ≤ ((Scalar.quotient magnitude).1.log2 : ℤ) -
      (Scalar.quotient magnitude).2.log2 - 1 := by
  have hleast : (-1074 : ℤ) ≤ exponent magnitude :=
    leastExponent_le_exponent magnitude
  have hdenominator : (Scalar.quotient magnitude).2.log2 =
      (-exponent magnitude).toNat :=
    Nat.log2_two_pow
  rw [hdenominator]
  omega

theorem zpow_ten_pointOf_le (hpositive : 0 < magnitude) :
    (10 : ℚ) ^ (pointOf magnitude - 1) ≤ number magnitude := by
  obtain ⟨hnumerator, hdenominator⟩ := quotient_pos hpositive
  obtain ⟨hlow, -⟩ := log2_sub_log2 hnumerator.ne' hdenominator.ne'
  rw [quotient_eq] at hlow
  have hguess := (ten_zpow_guess_le (log2_quotient magnitude)).trans hlow.le
  rw [pointOf]
  simp only [exceeds_iff hpositive, decide_eq_true_eq]
  split
  · exact hguess
  · rename_i hfirst
    split
    · rw [add_sub_cancel_right]
      exact not_lt.mp hfirst
    · rename_i hsecond
      rw [show ∀ guess : ℤ, guess + 2 - 1 = guess + 1 by intro guess; omega]
      exact not_lt.mp hsecond

/-- A unit of the seventeenth digit is less than what a number reaches to both
sides. -/
theorem significand_lt_reach (magnitude : ℕ) :
    (significand magnitude : ℚ) * 10 ^ (-16 : ℤ) <
      reachBelow magnitude / 4 + 1 / 2 := by
  rw [reachBelow]
  split
  · rename_i hpower
    have hwhole : significand magnitude = 2 ^ 52 := by
      rw [significand, if_neg (by omega), hpower.1, Nat.zero_add]
      rfl
    rw [hwhole]
    norm_num
  · have hmost : (significand magnitude : ℚ) ≤ 2 ^ 53 := by
      exact_mod_cast (significand_lt magnitude).le
    norm_num
    linarith

theorem onGrid_mostDigits_ne_none (hpositive : 0 < magnitude) :
    onGrid tie magnitude (pointOf magnitude - mostDigits) ≠ none := by
  apply onGrid_ne_none hpositive
  have hunit := two_zpow_pos (exponent magnitude)
  have hpoint := zpow_ten_pointOf_le hpositive
  have hmost : (10 : ℚ) ^ (pointOf magnitude - mostDigits) =
      10 ^ (pointOf magnitude - 1) * 10 ^ (-16 : ℤ) := by
    rw [← zpow_add₀ (by norm_num)]
    congr 1
    have hdigits : (mostDigits : ℤ) = 17 := rfl
    omega
  rw [hmost]
  calc (10 : ℚ) ^ (pointOf magnitude - 1) * 10 ^ (-16 : ℤ)
      ≤ number magnitude * 10 ^ (-16 : ℤ) :=
        mul_le_mul_of_nonneg_right hpoint (ten_zpow_pos _).le
    _ = significand magnitude * 10 ^ (-16 : ℤ) * 2 ^ exponent magnitude := by
        rw [number]
        ring
    _ < (reachBelow magnitude / 4 + 1 / 2) * 2 ^ exponent magnitude :=
        mul_lt_mul_of_pos_right (significand_lt_reach magnitude) hunit

theorem shortestFrom_readsBack {point : ℤ} {left : ℕ}
    (hmost : onGrid tie magnitude (point - mostDigits) ≠ none) :
    ∃ decimal, shortestFrom tie magnitude point left = some decimal ∧
      decimal.ReadsBack magnitude := by
  induction left with
  | zero =>
      obtain ⟨decimal, hdecimal⟩ := Option.ne_none_iff_exists'.mp hmost
      exact ⟨decimal, hdecimal, readsBack_of_onGrid hdecimal⟩
  | succ left ih =>
      rw [shortestFrom]
      cases hfirst : onGrid tie magnitude (point - (mostDigits - (left + 1) : ℕ)) with
      | none => exact ih
      | some decimal => exact ⟨decimal, rfl, readsBack_of_onGrid hfirst⟩

theorem shortest_readsBack (tie : Tie) (hpositive : 0 < magnitude) :
    (shortest tie magnitude).ReadsBack magnitude := by
  obtain ⟨decimal, hdecimal, hreads⟩ := @shortestFrom_readsBack magnitude tie
    (pointOf magnitude) (mostDigits - 1) (onGrid_mostDigits_ne_none hpositive)
  rwa [shortest, hdecimal]

end Decimal

end PackedTopology
