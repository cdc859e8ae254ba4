import Mathlib.Order.Monotone.Odd
import PackedTopology.Proofs.ConstraintRange
import PackedTopology.Proofs.Rounding

/-!
# The two orders of values

Tables are arranged by the total order of bit patterns, and ranges are widened by
the numerical order.  On numbers the first refines the second: it only puts the
negative zero before the positive one, which are equal.  The walk of a mapping by
value is therefore in numerical order, and begins and ends with the numbers that
the range of the same values has at its ends, if not always with the same zero.
-/

namespace PackedTopology

namespace Scalar

/-! ## Numbers in their order -/

/-- A larger magnitude has a larger exponent, or the same one and a larger
significand. -/
theorem number_strictMono : StrictMono number := by
  intro left right hlt
  have hleft := eq_exponent_significand left
  have hright := eq_exponent_significand right
  have hleast := leastExponent_le_exponent left
  have hunit : Nat.pow 2 (significandBits - 1) = 2 ^ 52 := rfl
  have hmono : exponent left ≤ exponent right := by
    have hfields : exponentField left ≤ exponentField right :=
      Nat.div_le_div_right hlt.le
    rw [exponent, exponent]
    omega
  rw [hunit] at hleft hright
  rcases hmono.eq_or_lt with hequal | hless
  · have hsignificands : significand left < significand right := by
      rw [hequal] at hleft
      omega
    rw [number, number, hequal]
    exact mul_lt_mul_of_pos_right (by exact_mod_cast hsignificands)
      (two_zpow_pos _)
  · have hmost : (significand left : ℚ) < 2 ^ 53 := by
      exact_mod_cast significand_lt left
    have hwhole : (2 : ℚ) ^ 52 ≤ significand right := by
      exact_mod_cast le_significand (hleast.trans_lt hless)
    calc number left
        < 2 ^ 53 * 2 ^ exponent left :=
          mul_lt_mul_of_pos_right hmost (two_zpow_pos _)
      _ = 2 ^ 52 * 2 ^ (exponent left + 1) := by
          rw [zpow_add_one₀ (by norm_num)]
          ring
      _ ≤ 2 ^ 52 * 2 ^ exponent right :=
          mul_le_mul_of_nonneg_left (zpow_le_of_le hless) (by norm_num)
      _ ≤ number right :=
          mul_le_mul_of_nonneg_right hwhole (two_zpow_pos _).le

/-- The number at a place of the numerical order. -/
def numberAt (position : ℤ) : ℚ :=
  position.sign * number position.natAbs

theorem number_zero : number 0 = 0 := by
  simp [number, significand, exponentField]

theorem numberAt_natCast (magnitude : ℕ) :
    numberAt magnitude = number magnitude := by
  rcases Nat.eq_zero_or_pos magnitude with rfl | hpositive
  · simp [numberAt, number_zero]
  · have hsign : (magnitude : ℤ).sign = 1 :=
      Int.sign_eq_one_of_pos (Int.natCast_pos.mpr hpositive)
    rw [numberAt, hsign, Int.natAbs_natCast, Int.cast_one, one_mul]

theorem numberAt_neg (position : ℤ) :
    numberAt (-position) = -numberAt position := by
  simp [numberAt]

theorem numberAt_le_iff {left right : ℤ} :
    numberAt left ≤ numberAt right ↔ left ≤ right := by
  have hmono : StrictMono numberAt := by
    apply strictMono_of_odd_strictMonoOn_nonneg numberAt_neg
    intro left hleft right hright hlt
    obtain ⟨left, rfl⟩ := Int.eq_ofNat_of_zero_le hleft
    obtain ⟨right, rfl⟩ := Int.eq_ofNat_of_zero_le hright
    rw [numberAt_natCast, numberAt_natCast]
    exact number_strictMono (Int.ofNat_lt.mp hlt)
  exact hmono.le_iff_le

theorem numberAt_inj {left right : ℤ} :
    numberAt left = numberAt right ↔ left = right := by
  rw [le_antisymm_iff, numberAt_le_iff, numberAt_le_iff, ← le_antisymm_iff]

/-- The exact value of a number, and for an infinity the one that would come next
to the largest numbers. -/
def exactValue (x : Scalar) : ℚ :=
  if x.negative then -number x.magnitude else number x.magnitude

theorem exactValue_eq_numberAt (x : Scalar) :
    x.exactValue = numberAt x.position := by
  rw [exactValue, position]
  split
  · rw [numberAt_neg, numberAt_natCast]
  · rw [numberAt_natCast]

variable {x y : Scalar}

/-- The numerical order of bit patterns is the order of what they stand for. -/
theorem atMost_iff_exactValue_le :
    x.AtMost y ↔ ¬x.IsNaN ∧ ¬y.IsNaN ∧ x.exactValue ≤ y.exactValue := by
  rw [AtMost, exactValue_eq_numberAt, exactValue_eq_numberAt,
    numberAt_le_iff]

theorem sameNumber_iff_exactValue_eq :
    x.SameNumber y ↔ ¬x.IsNaN ∧ ¬y.IsNaN ∧ x.exactValue = y.exactValue := by
  rw [SameNumber, exactValue_eq_numberAt, exactValue_eq_numberAt,
    numberAt_inj]

theorem AtMost.exactValue_le (hle : x.AtMost y) :
    x.exactValue ≤ y.exactValue :=
  (atMost_iff_exactValue_le.mp hle).2.2

theorem SameNumber.exactValue_eq (hsame : x.SameNumber y) :
    x.exactValue = y.exactValue :=
  (sameNumber_iff_exactValue_eq.mp hsame).2.2

/-! ## The total order on numbers -/

/-- From rank to position, the negative patterns move up by one. -/
theorem position_le_of_rank_le (hrank : x.rank ≤ y.rank) :
    x.position ≤ y.position := by
  unfold rank at hrank
  unfold position
  cases hx : x.negative <;> cases hy : y.negative <;>
    simp only [hx, hy, Bool.false_eq_true, if_false, if_true] at hrank ⊢ <;>
    omega

theorem atMost_of_rank_le (hx : ¬x.IsNaN) (hy : ¬y.IsNaN)
    (hrank : x.rank ≤ y.rank) : x.AtMost y :=
  ⟨hx, hy, position_le_of_rank_le hrank⟩

theorem atMost_refl (hx : ¬x.IsNaN) : x.AtMost x :=
  ⟨hx, hx, Int.le_refl _⟩

end Scalar

open Scalar

/-- Numbers in their order have their extent between the first and the last. -/
theorem ValueRange.isExtent_of_pairwise {range : ValueRange}
    {values : List Scalar} (hnumbers : ∀ value ∈ values, ¬value.IsNaN)
    (hsorted : values.Pairwise AtMost) (hfirst : values.head? = some range.min)
    (hlast : values.getLast? = some range.max) : range.IsExtent values where
  min_number := hnumbers _ (List.mem_of_head? hfirst)
  max_number := hnumbers _ (List.mem_of_getLast? hlast)
  min_mem := List.mem_of_head? hfirst
  max_mem := List.mem_of_getLast? hlast
  min_atMost value hvalue hnumber := by
    obtain ⟨rest, rfl⟩ := List.head?_eq_some_iff.mp hfirst
    rcases List.mem_cons.mp hvalue with rfl | hrest
    · exact atMost_refl hnumber
    · exact List.rel_of_pairwise_cons hsorted hrest
  atMost_max value hvalue hnumber := by
    obtain ⟨front, rfl⟩ := List.getLast?_eq_some_iff.mp hlast
    rcases List.mem_append.mp hvalue with hfront | hend
    · exact (List.pairwise_append.mp hsorted).2.2 value hfront _ (by simp)
    · rw [List.mem_singleton.mp hend] at hnumber ⊢
      exact atMost_refl hnumber

/-- The entry of a mapping that a constraint makes, its kind left out. -/
def Constraint.entry (constraint : Constraint) : MappingEntry :=
  ⟨constraint.vertex, constraint.value⟩

namespace SortedMappings

variable {entries : List MappingEntry}

theorem byValue_ofList_pairwise_atMost
    (hnumbers : ∀ entry ∈ entries, ¬entry.value.IsNaN) :
    (ofList entries).byValue.Pairwise fun left right =>
      left.value.AtMost right.value := by
  have hperm := byValue_ofList_perm entries
  apply (byValue_ofList_pairwise entries).imp_of_mem
  intro left right hleft hright horder
  apply atMost_of_rank_le
  · exact hnumbers left (hperm.mem_iff.mp hleft)
  · exact hnumbers right (hperm.mem_iff.mp hright)
  · rcases MappingEntry.valueOrder_iff.mp horder with hlt | ⟨heq, -⟩
    · exact hlt.le
    · exact heq.le

/-- The walk by value goes from one end of the extent of the values to the
other. -/
theorem exists_ends_byValue (hsome : entries ≠ [])
    (hnumbers : ∀ entry ∈ entries, ¬entry.value.IsNaN) :
    ∃ first last, (ofList entries).byValue.head? = some first ∧
      (ofList entries).byValue.getLast? = some last ∧
      (⟨first.value, last.value⟩ : ValueRange).IsExtent
        ((ofList entries).byValue.map MappingEntry.value) := by
  have hperm := byValue_ofList_perm entries
  have hwalk : (ofList entries).byValue ≠ [] := by
    intro hempty
    rw [hempty] at hperm
    exact hsome hperm.nil_eq.symm
  have hfirst := List.head?_eq_some_head hwalk
  have hlast := List.getLast?_eq_some_getLast hwalk
  refine ⟨_, _, hfirst, hlast, ValueRange.isExtent_of_pairwise ?_ ?_ ?_ ?_⟩
  · intro value hvalue
    obtain ⟨entry, hentry, rfl⟩ := List.mem_map.mp hvalue
    exact hnumbers entry (hperm.mem_iff.mp hentry)
  · exact List.pairwise_map.mpr (byValue_ofList_pairwise_atMost hnumbers)
  · rw [List.head?_map, hfirst, Option.map_some]
  · rw [List.getLast?_map, hlast, Option.map_some]

/-- The entries of a mapping are walked by value in numerical order, which is that
of the exact values.  If a list of constraints pins the same values to the same
vertices, in whatever order and however it came about, the ends of its range are
numerically the first and the last value of the walk. -/
theorem value_orders_agree {list : List Constraint} {constraints : Constraints}
    (hsome : entries ≠ [])
    (hnumbers : ∀ entry ∈ entries, ¬entry.value.IsNaN)
    (hperm : (list.map Constraint.entry).Perm entries)
    (hgathered : Constraints.Gathered constraints list) :
    ((ofList entries).byValue.Pairwise fun left right =>
      left.value.AtMost right.value ∧
        left.value.exactValue ≤ right.value.exactValue) ∧
    ∃ first last range,
      (ofList entries).byValue.head? = some first ∧
      (ofList entries).byValue.getLast? = some last ∧
      constraints.range = some range ∧
      range.min.SameNumber first.value ∧ range.max.SameNumber last.value ∧
      range.min.exactValue = first.value.exactValue ∧
      range.max.exactValue = last.value.exactValue := by
  obtain rfl := hgathered.eq_ofList
  have hsorted := byValue_ofList_pairwise_atMost hnumbers
  refine ⟨hsorted.imp fun hle => ⟨hle, hle.exactValue_le⟩, ?_⟩
  obtain ⟨first, last, hfirst, hlast, hwalk⟩ :=
    exists_ends_byValue hsome hnumbers
  cases list with
  | nil => exact absurd hperm.nil_eq.symm hsome
  | cons constraint rest =>
      have hnumber : ¬constraint.value.IsNaN :=
        hnumbers constraint.entry (hperm.mem_iff.mp List.mem_cons_self)
      obtain ⟨range, hrange, hspans⟩ :=
        Constraints.exists_range_spans hnumber rest
      -- The constraints have the values of the walk, in another order.
      have hvalues : ((constraint :: rest).map Constraint.value).Perm
          ((ofList entries).byValue.map MappingEntry.value) := by
        have hwalked := hperm.trans (byValue_ofList_perm entries).symm
        have hmapped := hwalked.map MappingEntry.value
        rwa [List.map_map] at hmapped
      obtain ⟨hmin, hmax⟩ := hwalk.sameNumber hspans.isExtent
        fun value _ => hvalues.mem_iff
      exact ⟨first, last, range, hfirst, hlast, hrange, hmin, hmax,
        hmin.exactValue_eq, hmax.exactValue_eq⟩

/-- Both zeros are the largest values.  The walk ends with the positive one, and
the range keeps the negative one, which came first. -/
theorem value_orders_agree_zeros :
    let entries : List MappingEntry :=
      [⟨7, ⟨0⟩⟩, ⟨-3, ⟨0xc000000000000000⟩⟩, ⟨5, ⟨0x8000000000000000⟩⟩]
    let list : List Constraint :=
      [⟨5, ⟨0x8000000000000000⟩, 0⟩, ⟨7, ⟨0⟩, 2⟩,
        ⟨-3, ⟨0xc000000000000000⟩, 1⟩]
    ∃ first range,
      (ofList entries).byValue.head? = some first ∧
      (ofList entries).byValue.getLast? = some ⟨7, ⟨0⟩⟩ ∧
      (Constraints.ofList list).range = some range ∧
      range.min.SameNumber first.value ∧ range.max.SameNumber ⟨0⟩ ∧
      (Constraints.ofList list).max = some ⟨0x8000000000000000⟩ := by
  intro entries list
  have hagree := @value_orders_agree entries list (.ofList list) (by decide)
    (by decide) (by decide) (.collected list)
  obtain ⟨-, first, last, range, hfirst, hlast, hrange, hmin, hmax, -⟩ := hagree
  have hwalk : (ofList entries).byValue =
      [⟨-3, ⟨0xc000000000000000⟩⟩, ⟨5, ⟨0x8000000000000000⟩⟩, ⟨7, ⟨0⟩⟩] :=
    byValue_ofList_eq_of_perm (by decide) (by decide)
  have hend : (ofList entries).byValue.getLast? = some ⟨7, ⟨0⟩⟩ := by
    rw [hwalk]
    rfl
  rw [hend] at hlast
  obtain rfl := Option.some.inj hlast
  exact ⟨first, range, hfirst, hend, hrange, hmin, hmax, by decide⟩

end SortedMappings

end PackedTopology
