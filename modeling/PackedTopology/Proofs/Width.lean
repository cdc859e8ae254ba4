import Mathlib.Algebra.Order.Floor.Div
import Mathlib.GroupTheory.GroupAction.Ring
import PackedTopology.Width

/-!
# Brackets of field widths

A number lies between the two powers of two that its binary digits name.  A
segment count therefore has a field width exactly when it is positive and
below the two-to-the-thirty-two, and every id below the count fits the field.
The words of a number of fields are the exact quotient of their bits by the
bits of a word, rounded up.
-/

namespace PackedTopology

theorem lt_two_pow_bitLength (n : ℕ) : n < 2 ^ bitLength n := by
  unfold bitLength
  by_cases hn : n = 0
  · simp [hn]
  · rw [if_neg hn]
    exact Nat.lt_log2_self

theorem bitLength_le_iff {n k : ℕ} : bitLength n ≤ k ↔ n < 2 ^ k := by
  by_cases hn : n = 0
  · rw [bitLength, if_pos hn, hn]
    exact iff_of_true (Nat.zero_le k) (Nat.two_pow_pos k)
  · rw [bitLength, if_neg hn, Nat.succ_le_iff, Nat.log2_lt hn]

theorem bitLength_pos {n : ℕ} (hn : 0 < n) : 0 < bitLength n := by
  rw [bitLength, if_neg (Nat.ne_of_gt hn)]
  exact Nat.succ_pos _

theorem bitLength_eq_iff {n width : ℕ} (hn : 0 < n) :
    bitLength n = width ↔ 2 ^ (width - 1) ≤ n ∧ n < 2 ^ width := by
  constructor
  · rintro rfl
    refine ⟨?_, lt_two_pow_bitLength n⟩
    have hpos := bitLength_pos hn
    exact Nat.le_of_not_lt fun hlt =>
      absurd (bitLength_le_iff.mpr hlt) (by omega)
  · rintro ⟨hlow, hhigh⟩
    have hle := bitLength_le_iff.mpr hhigh
    have hge : width - 1 < bitLength n :=
      Nat.lt_of_not_le fun h => Nat.not_lt_of_le hlow (bitLength_le_iff.mp h)
    omega

/-! ## Which counts have a field width -/

theorem fieldWidth_eq_ok_iff {segments width : ℕ} :
    fieldWidth segments = .ok width ↔
      0 < segments ∧ segments < 2 ^ 32 ∧ bitLength segments = width := by
  have hfits : bitLength segments ≤ wordBits ↔ segments < 2 ^ 32 :=
    bitLength_le_iff
  unfold fieldWidth
  by_cases hzero : segments = 0
  · simp [hzero]
  · rw [if_neg hzero]
    have hpos : 0 < segments := Nat.pos_of_ne_zero hzero
    by_cases hword : bitLength segments ≤ wordBits
    · have hsmall := hfits.mp hword
      simp only [hword, if_true, Except.ok.injEq, hpos, hsmall, true_and]
    · have hlarge : ¬ segments < 2 ^ 32 := fun h => hword (hfits.mpr h)
      simp only [hword, if_false, reduceCtorEq, hlarge, false_and, and_false]

theorem exists_fieldWidth {segments : ℕ} (hpos : 0 < segments)
    (hfits : segments < 2 ^ 32) : ∃ width, fieldWidth segments = .ok width :=
  ⟨bitLength segments, fieldWidth_eq_ok_iff.mpr ⟨hpos, hfits, rfl⟩⟩

theorem fieldWidth_pos {segments width : ℕ}
    (hwidth : fieldWidth segments = .ok width) : 0 < width := by
  obtain ⟨hpos, -, rfl⟩ := fieldWidth_eq_ok_iff.mp hwidth
  exact bitLength_pos hpos

theorem fieldWidth_le {segments width : ℕ}
    (hwidth : fieldWidth segments = .ok width) : width ≤ 32 := by
  obtain ⟨-, hfits, rfl⟩ := fieldWidth_eq_ok_iff.mp hwidth
  exact bitLength_le_iff.mpr hfits

theorem lt_two_pow_fieldWidth {segments width : ℕ}
    (hwidth : fieldWidth segments = .ok width) : segments < 2 ^ width := by
  obtain ⟨-, -, rfl⟩ := fieldWidth_eq_ok_iff.mp hwidth
  exact lt_two_pow_bitLength segments

/-- No segments have no width, and a count of more than a word the width of its
own digits. -/
theorem fieldWidth_eq_error_iff {segments : ℕ} {fault : Fault} :
    fieldWidth segments = .error fault ↔
      segments = 0 ∧ fault = .undefinedWidth segments ∨
        2 ^ 32 ≤ segments ∧ ∃ width, 2 ^ (width - 1) ≤ segments ∧
          segments < 2 ^ width ∧ fault = .unsupportedWidth width segments := by
  by_cases hzero : segments = 0
  · simp [hzero, fieldWidth, eq_comm]
  · have hpos : 0 < segments := Nat.pos_of_ne_zero hzero
    by_cases hfits : segments < 2 ^ 32
    · have hnot : ¬2 ^ 32 ≤ segments := Nat.not_le_of_lt hfits
      have hok := fieldWidth_eq_ok_iff.mpr ⟨hpos, hfits, rfl⟩
      simp only [hok, hzero, hnot, reduceCtorEq, false_and, or_self]
    · have hlong : ¬bitLength segments ≤ wordBits := fun hle =>
        hfits (bitLength_le_iff.mp hle)
      have hwidth : fieldWidth segments =
          .error (.unsupportedWidth (bitLength segments) segments) := by
        rw [fieldWidth, if_neg hzero, if_neg hlong]
      rw [hwidth, Except.error.injEq]
      constructor
      · rintro rfl
        obtain ⟨hlow, hhigh⟩ := (bitLength_eq_iff hpos).mp rfl
        exact .inr ⟨Nat.le_of_not_lt hfits, _, hlow, hhigh, rfl⟩
      · rintro (⟨hnone, -⟩ | ⟨-, width, hlow, hhigh, rfl⟩)
        · exact absurd hnone hzero
        · rw [(bitLength_eq_iff hpos).mpr ⟨hlow, hhigh⟩]

theorem fieldWidth_ne_incomplete (segments : ℕ) (region : Region)
    (offset needed : ℕ) :
    fieldWidth segments ≠ .error (.incomplete region offset needed) := by
  unfold fieldWidth
  split
  · simp
  · split <;> simp

/-! ## Words as an exact quotient -/

theorem wordCount_eq_ceilDiv (count width : ℕ) :
    wordCount count width = count * width ⌈/⌉ 32 := by
  rw [Nat.ceilDiv_eq_add_pred_div]
  rfl

theorem le_wordCount_mul (count width : ℕ) :
    count * width ≤ wordCount count width * 32 := by
  unfold wordCount wordBits
  omega

/-- Without the last word the fields would not fit. -/
theorem pred_wordCount_mul_lt {count width : ℕ} (hword : 0 < wordCount count width) :
    (wordCount count width - 1) * 32 < count * width := by
  unfold wordCount wordBits at *
  omega

theorem wordCount_le_wordCount {count more width wider : ℕ}
    (hcount : count ≤ more) (hwidth : width ≤ wider) :
    wordCount count width ≤ wordCount more wider :=
  Nat.div_le_div_right (Nat.add_le_add_right (Nat.mul_le_mul hcount hwidth) _)

/-! ## Widths and words together -/

/-- A count has a field width exactly if it is positive and below the
two-to-the-thirty-two.  The width is that of a word at most and brackets the
count, so it holds every id below it, and it does not shrink when the count
grows; longer counts are refused with the width that brackets them.  The words
of some fields have room for all their bits, which one word less would not
have, and more or wider fields do not take fewer words. -/
theorem width_brackets_count :
    (∀ segments, (∃ width, fieldWidth segments = .ok width) ↔
      1 ≤ segments ∧ segments < 2 ^ 32) ∧
    (∀ segments width, fieldWidth segments = .ok width →
      (1 ≤ width ∧ width ≤ 32) ∧
        (2 ^ (width - 1) ≤ segments ∧ segments < 2 ^ width) ∧
        (∀ id, id < segments → id < 2 ^ width) ∧
        (2 ≤ segments → width = bitWidth segments)) ∧
    (∀ fewer segments narrow width, fewer ≤ segments →
      fieldWidth fewer = .ok narrow → fieldWidth segments = .ok width →
        narrow ≤ width) ∧
    (∀ segments, 2 ^ 32 ≤ segments →
      ∃ width, fieldWidth segments = .error (.unsupportedWidth width segments) ∧
        2 ^ (width - 1) ≤ segments ∧ segments < 2 ^ width) ∧
    (∀ count width, count * width ≤ 32 * wordCount count width ∧
      (0 < wordCount count width →
        32 * (wordCount count width - 1) < count * width)) ∧
    ∀ count more width wider, count ≤ more → width ≤ wider →
      wordCount count width ≤ wordCount more wider := by
  refine ⟨?accepted, ?bracket, ?mono, ?refused, ?words, ?wordsMono⟩
  case accepted =>
    intro segments
    constructor
    · rintro ⟨width, hwidth⟩
      obtain ⟨hpos, hfits, -⟩ := fieldWidth_eq_ok_iff.mp hwidth
      exact ⟨hpos, hfits⟩
    · rintro ⟨hpos, hfits⟩
      exact exists_fieldWidth hpos hfits
  case bracket =>
    intro segments width hwidth
    obtain ⟨hpos, -, hlength⟩ := fieldWidth_eq_ok_iff.mp hwidth
    obtain ⟨hlow, hhigh⟩ := (bitLength_eq_iff hpos).mp hlength
    refine ⟨⟨fieldWidth_pos hwidth, fieldWidth_le hwidth⟩, ⟨hlow, hhigh⟩,
      fun id hid => hid.trans hhigh, ?_⟩
    intro hseveral
    rw [bitWidth, if_neg (by omega), if_neg (by omega), hlength]
  case mono =>
    intro fewer segments narrow width hle hnarrow hwidth
    obtain ⟨-, -, rfl⟩ := fieldWidth_eq_ok_iff.mp hnarrow
    exact bitLength_le_iff.mpr (hle.trans_lt (lt_two_pow_fieldWidth hwidth))
  case refused =>
    intro segments hlarge
    have hrefused := fieldWidth_eq_error_iff.mpr
      (.inr ⟨hlarge, _, (bitLength_eq_iff (by omega)).mp rfl |>.1,
        lt_two_pow_bitLength segments, rfl⟩)
    exact ⟨_, hrefused, (bitLength_eq_iff (by omega)).mp rfl⟩
  case words =>
    intro count width
    refine ⟨?_, fun hword => ?_⟩
    · rw [Nat.mul_comm 32]
      exact le_wordCount_mul count width
    · rw [Nat.mul_comm 32]
      exact pred_wordCount_mul_lt hword
  case wordsMono =>
    intro count more width wider hcount hwidth
    exact wordCount_le_wordCount hcount hwidth

/-- The widths on both sides of a power of two, the first count that no word
holds, and eleven fields of three bits, which start a second word. -/
theorem width_brackets_count_powers :
    (fieldWidth 255 = .ok 8 ∧ fieldWidth 256 = .ok 9 ∧ 8 ≤ 9) ∧
      (2 ^ (9 - 1) ≤ 256 ∧ 256 < 2 ^ 9 ∧ 9 = bitWidth 256) ∧
      (∃ width, fieldWidth (2 ^ 32) = .error (.unsupportedWidth width (2 ^ 32)) ∧
        2 ^ (width - 1) ≤ 2 ^ 32 ∧ 2 ^ 32 < 2 ^ width) ∧
      (0 < wordCount 11 3 ∧ 32 * (wordCount 11 3 - 1) < 11 * 3) ∧
      wordCount 10 3 ≤ wordCount 11 3 := by
  have hbelow : fieldWidth 255 = .ok 8 := by decide
  have habove : fieldWidth 256 = .ok 9 := by decide
  obtain ⟨-, hbracket, hmono, hrefused, hwords, hwordsMono⟩ :=
    width_brackets_count
  obtain ⟨-, ⟨hlow, hhigh⟩, -, hseveral⟩ := hbracket 256 9 habove
  exact ⟨⟨hbelow, habove, hmono 255 256 8 9 (by decide) hbelow habove⟩,
    ⟨hlow, hhigh, hseveral (by decide)⟩, hrefused (2 ^ 32) (by decide),
    ⟨by decide, (hwords 11 3).2 (by decide)⟩,
    hwordsMono 10 11 3 3 (by decide) (by decide)⟩

end PackedTopology
