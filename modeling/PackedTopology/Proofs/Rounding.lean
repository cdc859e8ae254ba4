import Mathlib.Algebra.Order.Field.Power
import Mathlib.Algebra.Order.Ring.Rat
import Mathlib.Tactic.FieldSimp
import Mathlib.Tactic.Linarith
import Mathlib.Tactic.NormNum
import Mathlib.Tactic.Positivity
import Mathlib.Tactic.Ring
import PackedTopology.Decimal.Shortest

/-!
# Rounding to a magnitude

Measured in units of a power of two, a positive rational is a significand and a
fraction.  The grid on which it is rounded is the one where it has a whole
significand, or the finest one.  A magnitude is what the rationals around its
number are rounded to: half a unit above it and below it, or a quarter of a unit
below it where the numbers lie twice as close.
-/

namespace PackedTopology

/-! ## Units -/

/-- A quotient is scaled by a power on the side where the power is whole. -/
theorem quotient_scaled_by (base numerator denominator : ℕ) (scale : ℤ) :
    ((numerator * Nat.pow base (-scale).toNat : ℕ) : ℚ) /
        (denominator * Nat.pow base scale.toNat : ℕ) =
      (numerator : ℚ) / denominator / base ^ scale := by
  rcases Int.le_total 0 scale with hscale | hscale
  · obtain ⟨power, rfl⟩ := Int.eq_ofNat_of_zero_le hscale
    have hnone : (-(power : ℤ)).toNat = 0 := by omega
    simp [hnone, div_div]
  · obtain ⟨power, hpower⟩ :=
      Int.eq_ofNat_of_zero_le (Int.neg_nonneg_of_nonpos hscale)
    obtain rfl : scale = -(power : ℤ) := by omega
    have hnone : (-(power : ℤ)).toNat = 0 := by omega
    simp [hnone, div_mul_eq_mul_div]

theorem scaled_quotient (numerator denominator : ℕ) (scale : ℤ) :
    ((numerator * Nat.pow 2 (-scale).toNat : ℕ) : ℚ) /
        (denominator * Nat.pow 2 scale.toNat : ℕ) =
      (numerator : ℚ) / denominator / 2 ^ scale :=
  quotient_scaled_by 2 numerator denominator scale

theorem decimal_quotient (digits : ℕ) (scale : ℤ) :
    ((digits * Nat.pow 10 scale.toNat : ℕ) : ℚ) / (Nat.pow 10 (-scale).toNat : ℕ) =
      digits * 10 ^ scale := by
  have hscaled := quotient_scaled_by 10 digits 1 (-scale)
  rw [neg_neg, Nat.one_mul, Nat.cast_one, div_one, zpow_neg, div_inv_eq_mul]
    at hscaled
  exact hscaled

/-! ## Halfway -/

section

variable {numerator denominator whole : ℕ}

/-- A whole number that is at most half away, on which side of it the quotient
may be, and even if it is just half away. -/
theorem roundHalfEven_of_le (hdenominator : 0 < denominator)
    (hlow : 2 * (denominator * whole) ≤ 2 * numerator + denominator)
    (hhigh : 2 * numerator ≤ 2 * (denominator * whole) + denominator)
    (heven : 2 * (denominator * whole) = 2 * numerator + denominator ∨
      2 * numerator = 2 * (denominator * whole) + denominator → whole % 2 = 0) :
    roundHalfEven numerator denominator = whole := by
  obtain ⟨quotient, hquotient⟩ : ∃ q, numerator / denominator = q := ⟨_, rfl⟩
  obtain ⟨rest, hrest⟩ : ∃ r, numerator % denominator = r := ⟨_, rfl⟩
  have hparts : denominator * quotient + rest = numerator := by
    rw [← hquotient, ← hrest]
    exact Nat.div_add_mod numerator denominator
  have hlt : rest < denominator := hrest ▸ Nat.mod_lt _ hdenominator
  have hle : ∀ less more, less ≤ more →
      denominator * less ≤ denominator * more := fun _ _ => Nat.mul_le_mul_left _
  -- No other whole numbers than the two around the quotient are that near.
  have hnear : whole = quotient ∨ whole = quotient + 1 := by
    by_contra hfar
    rcases Nat.lt_or_ge whole quotient with hless | hmore
    · have hbelow := hle (whole + 1) quotient hless
      rw [Nat.mul_add, Nat.mul_one] at hbelow
      omega
    · have habove := hle (quotient + 2) whole (by omega)
      rw [Nat.mul_add] at habove
      omega
  rw [roundHalfEven, hquotient, hrest]
  rcases hnear with rfl | rfl
  · rw [if_pos]
    omega
  · rw [Nat.mul_add, Nat.mul_one] at hlow hhigh heven
    rw [if_neg]
    omega

theorem roundHalfEven_eq (hdenominator : 0 < denominator)
    (hlow : (whole : ℚ) - 1 / 2 ≤ (numerator : ℚ) / denominator)
    (hhigh : (numerator : ℚ) / denominator ≤ whole + 1 / 2)
    (heven : (numerator : ℚ) / denominator = whole - 1 / 2 ∨
      (numerator : ℚ) / denominator = whole + 1 / 2 → whole % 2 = 0) :
    roundHalfEven numerator denominator = whole := by
  have hpositive : (0 : ℚ) < denominator := by exact_mod_cast hdenominator
  rw [le_div_iff₀ hpositive] at hlow
  rw [div_le_iff₀ hpositive] at hhigh
  rw [div_eq_iff hpositive.ne', div_eq_iff hpositive.ne'] at heven
  have hcast : ∀ left right : ℕ, (left : ℚ) = right → left = right := fun _ _ h => by
    exact_mod_cast h
  apply roundHalfEven_of_le hdenominator
  · have hbound : (2 * (denominator * whole) : ℚ) ≤ 2 * numerator + denominator := by
      linarith
    exact_mod_cast hbound
  · have hbound : (2 * numerator : ℚ) ≤ 2 * (denominator * whole) + denominator := by
      linarith
    exact_mod_cast hbound
  · rintro (hends | hends)
    · apply heven
      left
      have hends : (2 * (denominator * whole) : ℚ) = 2 * numerator + denominator := by
        exact_mod_cast hends
      linarith
    · apply heven
      right
      have hends : (2 * numerator : ℚ) = 2 * (denominator * whole) + denominator := by
        exact_mod_cast hends
      linarith

end

namespace Scalar

/-! ## Grids -/

theorem two_zpow_pos (power : ℤ) : (0 : ℚ) < 2 ^ power :=
  zpow_pos (by norm_num) power

theorem log2_bounds {n : ℕ} (hn : n ≠ 0) :
    (2 : ℚ) ^ (n.log2 : ℤ) ≤ n ∧ (n : ℚ) < 2 ^ ((n.log2 : ℤ) + 1) := by
  constructor
  · rw [zpow_natCast]
    exact_mod_cast Nat.log2_self_le hn
  · have hlt := @Nat.lt_log2_self n
    rw [← Nat.cast_one, ← Nat.cast_add, zpow_natCast]
    exact_mod_cast hlt

theorem log2_sub_log2 {numerator denominator : ℕ} (hnumerator : numerator ≠ 0)
    (hdenominator : denominator ≠ 0) :
    (2 : ℚ) ^ ((numerator.log2 : ℤ) - denominator.log2 - 1) <
        (numerator : ℚ) / denominator ∧
      (numerator : ℚ) / denominator <
        2 ^ ((numerator.log2 : ℤ) - denominator.log2 + 1) := by
  obtain ⟨hlow, hhigh⟩ := log2_bounds hnumerator
  obtain ⟨hbelow, habove⟩ := log2_bounds hdenominator
  have hpositive : (0 : ℚ) < denominator := by
    exact_mod_cast Nat.pos_of_ne_zero hdenominator
  have htwo : (2 : ℚ) ≠ 0 := by norm_num
  constructor
  · rw [lt_div_iff₀ hpositive]
    calc (2 : ℚ) ^ ((numerator.log2 : ℤ) - denominator.log2 - 1) * denominator
        < 2 ^ ((numerator.log2 : ℤ) - denominator.log2 - 1) *
            2 ^ ((denominator.log2 : ℤ) + 1) :=
          mul_lt_mul_of_pos_left habove (two_zpow_pos _)
      _ = 2 ^ (numerator.log2 : ℤ) := by
          rw [← zpow_add₀ htwo]
          congr 1
          omega
      _ ≤ numerator := hlow
  · rw [div_lt_iff₀ hpositive]
    calc (numerator : ℚ) < 2 ^ ((numerator.log2 : ℤ) + 1) := hhigh
      _ = 2 ^ ((numerator.log2 : ℤ) - denominator.log2 + 1) *
            2 ^ (denominator.log2 : ℤ) := by
          rw [← zpow_add₀ htwo]
          congr 1
          omega
      _ ≤ 2 ^ ((numerator.log2 : ℤ) - denominator.log2 + 1) * denominator :=
          mul_le_mul_of_nonneg_left hbelow (two_zpow_pos _).le

/-- The grid on which a quotient is rounded: there it has a significand of the
most bits, or fewer on the finest grid. -/
structure Grid (x : ℚ) (scale : ℤ) : Prop where
  least_le : leastExponent ≤ scale
  lt : x < 2 ^ (scale + 53)
  le : leastExponent < scale → 2 ^ (scale + 52) ≤ x

theorem fits_iff {numerator denominator : ℕ} (hdenominator : denominator ≠ 0)
    (scale : ℤ) :
    numerator * Nat.pow 2 (-scale).toNat <
        Nat.pow 2 significandBits * (denominator * Nat.pow 2 scale.toNat) ↔
      (numerator : ℚ) / denominator < 2 ^ (scale + 53) := by
  have hunit : (0 : ℚ) < (denominator * Nat.pow 2 scale.toNat : ℕ) := by
    exact_mod_cast Nat.mul_pos (Nat.pos_of_ne_zero hdenominator)
      (Nat.pow_pos (by decide))
  have hbits : (2 : ℚ) ^ (scale + 53) = 2 ^ (53 : ℕ) * 2 ^ scale := by
    rw [add_comm, zpow_add₀ (by norm_num)]
    rfl
  rw [hbits, ← div_lt_iff₀ (two_zpow_pos scale),
    ← scaled_quotient, div_lt_iff₀ hunit]
  exact_mod_cast Iff.rfl

theorem grid_gridOf {numerator denominator : ℕ} (hnumerator : numerator ≠ 0)
    (hdenominator : denominator ≠ 0) :
    Grid ((numerator : ℚ) / denominator) (gridOf numerator denominator) := by
  obtain ⟨hlow, hhigh⟩ := log2_sub_log2 hnumerator hdenominator
  obtain ⟨guess, hguess⟩ : ∃ guess : ℤ, (numerator.log2 : ℤ) - denominator.log2 -
    (significandBits : ℤ) = guess := ⟨_, rfl⟩
  have hexact : (numerator.log2 : ℤ) - denominator.log2 = guess + 53 := by
    have hbits : (significandBits : ℤ) = 53 := rfl
    omega
  rw [hexact] at hlow hhigh
  -- A scale that is not the finest grid is the one of the whole significand.
  have hmax : ∀ scale : ℤ, (numerator : ℚ) / denominator < 2 ^ (scale + 53) →
      2 ^ (scale + 52) ≤ (numerator : ℚ) / denominator →
      Grid ((numerator : ℚ) / denominator) (max leastExponent scale) := by
    intro scale hlt hle
    refine ⟨le_max_left _ _, hlt.trans_le ?_, fun hleast => ?_⟩
    · exact zpow_le_zpow_right₀ (by norm_num) (by omega)
    · rwa [max_eq_right (by omega)]
  rw [gridOf, hguess]
  simp only [fits_iff hdenominator]
  split
  · rename_i hfits
    apply hmax guess hfits
    rw [show guess + 52 = guess + 53 - 1 by omega]
    exact hlow.le
  · rename_i hfits
    apply hmax (guess + 1)
    · rwa [show guess + 1 + 53 = guess + 53 + 1 by omega]
    · rw [show guess + 1 + 52 = guess + 53 by omega]
      exact not_lt.mp hfits

/-! ## Magnitudes -/

variable {magnitude : ℕ}

theorem significand_lt (magnitude : ℕ) : significand magnitude < 2 ^ 53 := by
  have hmod : magnitude % Nat.pow 2 (significandBits - 1) < 2 ^ 52 :=
    Nat.mod_lt _ (by decide)
  have hone : Nat.pow 2 (significandBits - 1) = 2 ^ 52 := rfl
  rw [significand]
  split <;> omega

theorem leastExponent_le_exponent (magnitude : ℕ) :
    leastExponent ≤ exponent magnitude := by
  rw [exponent]
  omega

/-- The bits of a magnitude count the magnitudes below it. -/
theorem eq_exponent_significand (magnitude : ℕ) :
    (exponent magnitude - leastExponent).toNat *
        Nat.pow 2 (significandBits - 1) + significand magnitude =
      magnitude := by
  have hparts := Nat.div_add_mod magnitude (Nat.pow 2 (significandBits - 1))
  have hexponent : (exponent magnitude - leastExponent).toNat =
      exponentField magnitude - 1 := by
    rw [exponent]
    omega
  rw [hexponent, significand, exponentField]
  rw [Nat.mul_comm] at hparts
  split
  · rename_i hfield
    rw [hfield, Nat.zero_mul, Nat.zero_add] at hparts
    rw [hfield, Nat.zero_sub, Nat.zero_mul, Nat.zero_add, Nat.add_zero, hparts]
  · rename_i hfield
    obtain ⟨field, hsome⟩ := Nat.exists_eq_succ_of_ne_zero hfield
    rw [hsome, Nat.succ_mul] at hparts
    rw [hsome, Nat.succ_sub_one]
    omega

/-- The significand is whole above the finest grid. -/
theorem le_significand (hleast : leastExponent < exponent magnitude) :
    2 ^ 52 ≤ significand magnitude := by
  have hfield : exponentField magnitude ≠ 0 := by
    intro hzero
    rw [exponent, hzero] at hleast
    exact absurd hleast (by decide)
  rw [significand, if_neg hfield]
  exact Nat.le_add_left _ _

theorem significand_pos (hpositive : 0 < magnitude) : 0 < significand magnitude := by
  rw [significand]
  split
  · rename_i hfield
    have hsmall : magnitude < Nat.pow 2 (significandBits - 1) := by
      apply Nat.lt_of_div_eq_zero
      · exact Nat.pow_pos (by decide)
      · exact hfield
    rwa [Nat.mod_eq_of_lt hsmall]
  · exact Nat.add_pos_right _ (Nat.pow_pos (by decide))

/-- The number that a finite magnitude stands for. -/
def number (magnitude : ℕ) : ℚ :=
  significand magnitude * 2 ^ exponent magnitude

/-- A rational that is rounded to a magnitude, measured in units of its power of
two: it is nearer to it than to any other one, or just between two and the
significand is even. -/
structure Reaches (magnitude : ℕ) (x : ℚ) : Prop where
  low : (significand magnitude : ℚ) - Decimal.reachBelow magnitude / 4 ≤
    x / 2 ^ exponent magnitude
  high : x / 2 ^ exponent magnitude ≤ significand magnitude + 1 / 2
  even_of_end :
    x / 2 ^ exponent magnitude =
        (significand magnitude : ℚ) - Decimal.reachBelow magnitude / 4 ∨
      x / 2 ^ exponent magnitude = significand magnitude + 1 / 2 →
    significand magnitude % 2 = 0

theorem reachBelow_le (magnitude : ℕ) : Decimal.reachBelow magnitude ≤ 2 := by
  rw [Decimal.reachBelow]
  split <;> decide

/-- The numbers below a power of two lie twice as close, unless they lie on the
finest grid as well. -/
theorem reachBelow_eq_one (hwhole : significand magnitude = 2 ^ 52)
    (hleast : leastExponent < exponent magnitude) :
    Decimal.reachBelow magnitude = 1 := by
  have hfield : 1 < exponentField magnitude := by
    rw [exponent] at hleast
    omega
  have hmod : magnitude % Nat.pow 2 (significandBits - 1) = 0 := by
    have hone : Nat.pow 2 (significandBits - 1) = 2 ^ 52 := rfl
    rw [significand, if_neg (by omega), hone] at hwhole
    rw [hone]
    omega
  rw [Decimal.reachBelow, if_pos ⟨hmod, hfield⟩]

/-- A count of quarters of a unit compares with a quotient as whole numbers do. -/
theorem quarters_iff {numerator denominator : ℕ} (hdenominator : 0 < denominator)
    (scale : ℤ) (count : ℕ) :
    let value := 4 * numerator * Nat.pow 2 (-scale).toNat
    let unit := denominator * Nat.pow 2 scale.toNat
    let y := (numerator : ℚ) / denominator / 2 ^ scale
    (count * unit < value ↔ (count : ℚ) < 4 * y) ∧
      (value < count * unit ↔ 4 * y < (count : ℚ)) ∧
      (value = count * unit ↔ 4 * y = (count : ℚ)) := by
  intro value unit y
  have hunit : (0 : ℚ) < unit := by
    exact_mod_cast Nat.mul_pos hdenominator (Nat.pow_pos (by decide))
  have hquarters : (value : ℚ) = 4 * y * unit := by
    have hscaled := scaled_quotient numerator denominator scale
    rw [div_eq_iff hunit.ne'] at hscaled
    unfold value
    rw [Nat.mul_assoc, Nat.cast_mul, hscaled, mul_assoc]
    rfl
  refine ⟨?_, ?_, ?_⟩
  · rw [← mul_lt_mul_iff_left₀ hunit, ← hquarters]
    exact_mod_cast Iff.rfl
  · rw [← mul_lt_mul_iff_left₀ hunit, ← hquarters]
    exact_mod_cast Iff.rfl
  · rw [← mul_left_inj' hunit.ne', ← hquarters]
    exact_mod_cast Iff.rfl

theorem cast_reach_low (hpositive : 0 < magnitude) :
    ((4 * significand magnitude - Decimal.reachBelow magnitude : ℕ) : ℚ) =
      4 * significand magnitude - Decimal.reachBelow magnitude := by
  have hle := reachBelow_le magnitude
  have hsome := significand_pos hpositive
  rw [Nat.cast_sub (by omega), Nat.cast_mul]
  rfl

theorem roundsTo_iff {numerator denominator : ℕ} (hpositive : 0 < magnitude)
    (hdenominator : 0 < denominator) :
    Decimal.RoundsTo magnitude numerator denominator ↔
      Reaches magnitude ((numerator : ℚ) / denominator) := by
  obtain ⟨y, hy⟩ : ∃ y : ℚ, (numerator : ℚ) / denominator /
    2 ^ exponent magnitude = y := ⟨_, rfl⟩
  have hquarters := @quarters_iff numerator _ hdenominator (exponent magnitude)
  simp only [hy] at hquarters
  rw [Decimal.RoundsTo]
  simp only [(hquarters _).1, (hquarters _).2.1, (hquarters _).2.2,
    cast_reach_low hpositive]
  push_cast
  constructor
  · rintro (⟨hlow, hhigh⟩ | ⟨heven, hend⟩)
    · refine ⟨?_, ?_, ?_⟩ <;> rw [hy]
      · linarith
      · linarith
      · rintro (hend | hend) <;> linarith
    · have hreach : (0 : ℚ) ≤ Decimal.reachBelow magnitude := Nat.cast_nonneg _
      refine ⟨?_, ?_, fun _ => heven⟩ <;> rw [hy] <;>
        rcases hend with hend | hend <;> linarith
  · rintro ⟨hlow, hhigh, heven⟩
    rw [hy] at hlow hhigh heven
    by_cases hend : y = (significand magnitude : ℚ) -
        Decimal.reachBelow magnitude / 4 ∨ y = significand magnitude + 1 / 2
    · refine .inr ⟨heven hend, ?_⟩
      rcases hend with hend | hend
      · left
        linarith
      · right
        linarith
    · obtain ⟨hnotLow, hnotHigh⟩ := not_or.mp hend
      have hbelow := lt_of_le_of_ne hlow (Ne.symm hnotLow)
      have habove := lt_of_le_of_ne hhigh hnotHigh
      left
      constructor <;> linarith

/-! ## The nearest magnitude -/

section

variable {x : ℚ} {scale : ℤ}

theorem div_lt_of_lt (power : ℕ) (hlt : x < 2 ^ (scale + power)) :
    x / 2 ^ scale < 2 ^ power := by
  rwa [div_lt_iff₀ (two_zpow_pos scale), ← zpow_natCast, ← zpow_add₀ (by norm_num),
    add_comm (power : ℤ)]

theorem le_div_of_le (power : ℕ) (hle : 2 ^ (scale + power) ≤ x) :
    2 ^ power ≤ x / 2 ^ scale := by
  rwa [le_div_iff₀ (two_zpow_pos scale), ← zpow_natCast, ← zpow_add₀ (by norm_num),
    add_comm (power : ℤ)]

theorem zpow_le_of_le {power more : ℤ} (hle : power ≤ more) :
    (2 : ℚ) ^ power ≤ 2 ^ more :=
  zpow_le_zpow_right₀ (by norm_num) hle

/-- A rational is rounded on the grid of its magnitude, or, if that is a power of
two, on the finer grid just below it. -/
theorem Reaches.grid_cases (hreaches : Reaches magnitude x) (hgrid : Grid x scale) :
    scale = exponent magnitude ∨
      scale = exponent magnitude - 1 ∧ leastExponent < exponent magnitude ∧
        significand magnitude = 2 ^ 52 := by
  have hlt := significand_lt magnitude
  have hhigh := hreaches.high
  have hlow := hreaches.low
  have hreach : (Decimal.reachBelow magnitude : ℚ) ≤ 2 := by
    exact_mod_cast reachBelow_le magnitude
  rcases lt_trichotomy scale (exponent magnitude) with hfiner | hsame | hcoarser
  · right
    have hleast := hgrid.least_le.trans_lt hfiner
    have hwhole : (2 ^ 52 : ℚ) ≤ significand magnitude := by
      exact_mod_cast le_significand hleast
    have hbelow : x / 2 ^ exponent magnitude < 2 ^ 52 :=
      div_lt_of_lt 52 (hgrid.lt.trans_le (zpow_le_of_le (by push_cast; omega)))
    refine ⟨?_, hleast, ?_⟩
    · by_contra hfar
      have hsmall : x / 2 ^ exponent magnitude < 2 ^ 51 :=
        div_lt_of_lt 51 (hgrid.lt.trans_le (zpow_le_of_le (by push_cast; omega)))
      linarith
    · have hmost : (significand magnitude : ℚ) < 2 ^ 52 + 1 := by linarith
      have hmost' : significand magnitude < 2 ^ 52 + 1 := by exact_mod_cast hmost
      have hwhole' := le_significand hleast
      omega
  · exact .inl hsame
  · exfalso
    have hleast := (leastExponent_le_exponent magnitude).trans_lt hcoarser
    have habove : (2 : ℚ) ^ 53 ≤ x / 2 ^ exponent magnitude :=
      le_div_of_le 53 ((zpow_le_of_le (by push_cast; omega)).trans (hgrid.le hleast))
    have hmost : (significand magnitude : ℚ) + 1 ≤ 2 ^ 53 := by exact_mod_cast hlt
    linarith

end

section

variable {numerator denominator : ℕ}

theorem scaled_pos (hdenominator : 0 < denominator) (scale : ℤ) :
    0 < denominator * Nat.pow 2 scale.toNat :=
  Nat.mul_pos hdenominator (Nat.pow_pos (by decide))

/-- On its own grid a magnitude has its own significand. -/
theorem Reaches.significandAt_eq
    (hreaches : Reaches magnitude ((numerator : ℚ) / denominator))
    (hdenominator : 0 < denominator) :
    significandAt numerator denominator (exponent magnitude) =
      significand magnitude := by
  have hreach : (Decimal.reachBelow magnitude : ℚ) ≤ 2 := by
    exact_mod_cast reachBelow_le magnitude
  have hlow := hreaches.low
  refine roundHalfEven_eq (scaled_pos hdenominator _) ?_ ?_ ?_ <;>
    rw [scaled_quotient]
  · linarith
  · exact hreaches.high
  · rintro (hend | hend)
    · exact hreaches.even_of_end (.inl (by linarith))
    · exact hreaches.even_of_end (.inr hend)

/-- On the finer grid below a power of two the significand is rounded up past its
last value. -/
theorem Reaches.significandAt_finer
    (hreaches : Reaches magnitude ((numerator : ℚ) / denominator))
    (hdenominator : 0 < denominator) (hwhole : significand magnitude = 2 ^ 52)
    (hleast : leastExponent < exponent magnitude)
    (hbelow : (numerator : ℚ) / denominator / 2 ^ exponent magnitude < 2 ^ 52) :
    significandAt numerator denominator (exponent magnitude - 1) = 2 ^ 53 := by
  have hlow := hreaches.low
  rw [hwhole, reachBelow_eq_one hwhole hleast] at hlow
  have hdouble : (numerator : ℚ) / denominator / 2 ^ (exponent magnitude - 1) =
      2 * ((numerator : ℚ) / denominator / 2 ^ exponent magnitude) := by
    rw [zpow_sub₀ (by norm_num), zpow_one]
    field_simp
  refine roundHalfEven_eq (scaled_pos hdenominator _) ?_ ?_ fun _ => rfl <;>
    rw [scaled_quotient, hdouble]
  · push_cast at hlow ⊢
    linarith
  · push_cast
    linarith

theorem Reaches.ne_zero (hpositive : 0 < magnitude)
    (hreaches : Reaches magnitude ((numerator : ℚ) / denominator)) :
    numerator ≠ 0 := by
  have hreach : (Decimal.reachBelow magnitude : ℚ) ≤ 2 := by
    exact_mod_cast reachBelow_le magnitude
  have hsome : (1 : ℚ) ≤ significand magnitude := by
    exact_mod_cast significand_pos hpositive
  have hlow := hreaches.low
  rintro rfl
  rw [Nat.cast_zero, zero_div, zero_div] at hlow
  linarith

/-- Whatever a magnitude reaches is rounded to it. -/
theorem nearest_eq (hpositive : 0 < magnitude)
    (hfinite : magnitude < infiniteMagnitude) (hdenominator : 0 < denominator)
    (hreaches : Reaches magnitude ((numerator : ℚ) / denominator)) :
    nearest numerator denominator = magnitude := by
  have hnumerator := hreaches.ne_zero hpositive
  have hparts := eq_exponent_significand magnitude
  have hgrid := grid_gridOf hnumerator hdenominator.ne'
  have hsum : (gridOf numerator denominator - leastExponent).toNat *
      Nat.pow 2 (significandBits - 1) +
        significandAt numerator denominator (gridOf numerator denominator) =
      magnitude := by
    rcases hreaches.grid_cases hgrid with hsame | ⟨hfiner, hleast, hwhole⟩
    · rw [hsame, hreaches.significandAt_eq hdenominator, hparts]
    · have hbelow : (numerator : ℚ) / denominator / 2 ^ exponent magnitude <
          2 ^ 52 :=
        div_lt_of_lt 52 (hgrid.lt.trans_le (zpow_le_of_le (by push_cast; omega)))
      have hnext : (exponent magnitude - leastExponent).toNat =
          (exponent magnitude - 1 - leastExponent).toNat + 1 := by omega
      have hone : Nat.pow 2 (significandBits - 1) = 2 ^ 52 := rfl
      rw [hwhole, hone, hnext] at hparts
      rw [hfiner, hone,
        hreaches.significandAt_finer hdenominator hwhole hleast hbelow]
      exact Eq.trans (by ring) hparts
  rw [nearest, if_neg hnumerator]
  simp only [hsum]
  exact min_eq_right hfinite.le

end

/-! ## Decimals -/

theorem exponent_le (hfinite : magnitude < infiniteMagnitude) :
    exponent magnitude ≤ 971 := by
  have hfield : exponentField magnitude < 2047 :=
    Nat.div_lt_of_lt_mul hfinite
  have hleast : leastExponent = -1074 := rfl
  rw [exponent]
  omega

/-- What is rounded to a finite magnitude lies well within the range that decimals
are looked at in. -/
theorem Reaches.bounds {x : ℚ} (hreaches : Reaches magnitude x)
    (hpositive : 0 < magnitude) (hfinite : magnitude < infiniteMagnitude) :
    (2 : ℚ) ^ (-1075 : ℤ) ≤ x ∧ x < 2 ^ (1024 : ℤ) := by
  have hunit := two_zpow_pos (exponent magnitude)
  have hreach : (Decimal.reachBelow magnitude : ℚ) ≤ 2 := by
    exact_mod_cast reachBelow_le magnitude
  have hsome : (1 : ℚ) ≤ significand magnitude := by
    exact_mod_cast significand_pos hpositive
  have hmost : (significand magnitude : ℚ) + 1 ≤ 2 ^ 53 := by
    exact_mod_cast significand_lt magnitude
  have hlow := hreaches.low
  have hhigh := hreaches.high
  constructor
  · have hleast : (-1074 : ℤ) ≤ exponent magnitude :=
      leastExponent_le_exponent magnitude
    have hhalf : (2 : ℚ) ^ (-1 : ℤ) ≤ x / 2 ^ exponent magnitude := by
      rw [zpow_neg_one]
      linarith
    rw [le_div_iff₀ hunit, ← zpow_add₀ (by norm_num)] at hhalf
    exact (zpow_le_of_le (by omega)).trans hhalf
  · have hwhole : x / 2 ^ exponent magnitude < 2 ^ (53 : ℤ) := by
      rw [show (2 : ℚ) ^ (53 : ℤ) = 2 ^ 53 from rfl]
      linarith
    have hgreatest := exponent_le hfinite
    rw [div_lt_iff₀ hunit, ← zpow_add₀ (by norm_num)] at hwhole
    exact hwhole.trans_le (zpow_le_of_le (by omega))

theorem two_zpow_le_ten_zpow : (2 : ℚ) ^ (1200 : ℤ) ≤ 10 ^ (400 : ℤ) := by
  rw [show (1200 : ℤ) = 3 * 400 from rfl, zpow_mul]
  exact zpow_le_zpow_left₀ (by norm_num) (by norm_num) (by norm_num)

section

variable {digits : ℕ} {scale : ℤ}

theorem ten_zpow_pos (power : ℤ) : (0 : ℚ) < 10 ^ power :=
  zpow_pos (by norm_num) power

theorem not_bottom_lt (hdigits : digits ≠ 0)
    (hlow : (2 : ℚ) ^ (-1075 : ℤ) ≤ digits * 10 ^ scale) :
    ¬scale + (digits.log2 : ℤ) < -400 := by
  intro hbottom
  have htiny : (digits : ℚ) * 10 ^ scale < 2 ^ (-1075 : ℤ) := by
    calc (digits : ℚ) * 10 ^ scale
        < 2 ^ ((digits.log2 : ℤ) + 1) * 10 ^ scale :=
          mul_lt_mul_of_pos_right (log2_bounds hdigits).2 (ten_zpow_pos scale)
      _ ≤ 10 ^ ((digits.log2 : ℤ) + 1) * 10 ^ scale :=
          mul_le_mul_of_nonneg_right
            (zpow_le_zpow_left₀ (by omega) (by norm_num) (by norm_num))
            (ten_zpow_pos scale).le
      _ = 10 ^ ((digits.log2 : ℤ) + 1 + scale) :=
          (zpow_add₀ (by norm_num) _ _).symm
      _ ≤ 10 ^ (-400 : ℤ) := zpow_le_zpow_right₀ (by norm_num) (by omega)
      _ ≤ 2 ^ (-1075 : ℤ) := by
          rw [zpow_neg, zpow_neg]
          exact inv_anti₀ (two_zpow_pos _)
            ((zpow_le_of_le (by omega)).trans two_zpow_le_ten_zpow)
  exact absurd hlow (not_le.mpr htiny)

theorem not_lt_top (hdigits : digits ≠ 0)
    (hhigh : (digits : ℚ) * 10 ^ scale < 2 ^ (1024 : ℤ)) :
    ¬400 < scale + (digits.log2 : ℤ) / 4 := by
  intro htop
  have hhuge : (2 : ℚ) ^ (1024 : ℤ) ≤ digits * 10 ^ scale := by
    calc (2 : ℚ) ^ (1024 : ℤ) ≤ 10 ^ (400 : ℤ) :=
          (zpow_le_of_le (by omega)).trans two_zpow_le_ten_zpow
      _ ≤ 10 ^ ((digits.log2 : ℤ) / 4 + scale) :=
          zpow_le_zpow_right₀ (by norm_num) (by omega)
      _ = 10 ^ ((digits.log2 : ℤ) / 4) * 10 ^ scale := zpow_add₀ (by norm_num) _ _
      _ ≤ 16 ^ ((digits.log2 : ℤ) / 4) * 10 ^ scale :=
          mul_le_mul_of_nonneg_right
            (zpow_le_zpow_left₀ (by omega) (by norm_num) (by norm_num))
            (ten_zpow_pos scale).le
      _ = 2 ^ (4 * ((digits.log2 : ℤ) / 4)) * 10 ^ scale := by
          rw [zpow_mul]
          norm_num
      _ ≤ 2 ^ (digits.log2 : ℤ) * 10 ^ scale :=
          mul_le_mul_of_nonneg_right (zpow_le_of_le (by omega))
            (ten_zpow_pos scale).le
      _ ≤ digits * 10 ^ scale :=
          mul_le_mul_of_nonneg_right (log2_bounds hdigits).1 (ten_zpow_pos scale).le
  exact absurd hhigh (not_lt.mpr hhuge)

theorem nearestDecimal_eq (hpositive : 0 < magnitude)
    (hfinite : magnitude < infiniteMagnitude)
    (hreaches : Reaches magnitude (digits * 10 ^ scale)) :
    nearestDecimal digits scale = magnitude := by
  obtain ⟨hlow, hhigh⟩ := hreaches.bounds hpositive hfinite
  have hdigits : digits ≠ 0 := by
    rintro rfl
    rw [Nat.cast_zero, zero_mul] at hlow
    exact absurd hlow (not_le.mpr (two_zpow_pos _))
  have hbottom := not_bottom_lt hdigits hlow
  have hdenominator : 0 < Nat.pow 10 (-scale).toNat := Nat.pow_pos (by decide)
  rw [nearestDecimal, if_neg (not_or.mpr ⟨hdigits, hbottom⟩),
    if_neg (not_lt_top hdigits hhigh)]
  apply nearest_eq hpositive hfinite hdenominator
  rwa [decimal_quotient]

end

end Scalar

end PackedTopology
