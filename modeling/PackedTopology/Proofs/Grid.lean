import Mathlib.Algebra.BigOperators.Group.List.Basic
import Mathlib.Algebra.Order.BigOperators.GroupWithZero.List
import Mathlib.Algebra.Order.Ring.Nat
import PackedTopology.Grid

/-!
# Grid shapes and the axes they keep

A plane takes its two axes from two choices, each of which looks at some of
the three sizes only.  Together they pick the axes that are not the unit axis
and leave their order as it is, but they do so only because the unit axes were
counted before.  As nothing but a factor of one is dropped, the shape holds as
many values as the three sizes say.
-/

namespace PackedTopology.GridShape

variable {nx ny nz : ℕ} {shape : GridShape}

/-- No axis is empty, and no two of them are unit axes. -/
def Supported (nx ny nz : ℕ) : Prop :=
  (nx ≠ 0 ∧ ny ≠ 0 ∧ nz ≠ 0) ∧ [nx, ny, nz].count 1 ≤ 1

theorem ofAxes_of_volume (hnx : nx ≠ 0) (hny : ny ≠ 0) (hnz : nz ≠ 0)
    (hunits : [nx, ny, nz].count 1 = 0) :
    ofAxes nx ny nz = .ok (.volume nx ny nz) := by
  simp only [ofAxes, hnx, hny, hnz, or_self, if_false, hunits]

theorem ofAxes_of_plane (hnx : nx ≠ 0) (hny : ny ≠ 0) (hnz : nz ≠ 0)
    (hunits : [nx, ny, nz].count 1 = 1) :
    ofAxes nx ny nz =
      .ok (.plane (if nx ≠ 1 then nx else ny)
        (if nx ≠ 1 ∧ ny ≠ 1 then ny else nz)) := by
  simp only [ofAxes, hnx, hny, hnz, or_self, if_false, hunits]

theorem ofAxes_of_not_supported (hnot : ¬Supported nx ny nz) :
    ofAxes nx ny nz = .error (.unsupportedShape nx ny nz) := by
  unfold ofAxes
  split
  · rfl
  · rename_i hsizes
    simp only [not_or] at hsizes
    have hunits : 1 < [nx, ny, nz].count 1 :=
      Nat.lt_of_not_le fun hle => hnot ⟨hsizes, hle⟩
    split
    · omega
    · omega
    · rfl

/-- Where just one axis is the unit axis, the two choices of a plane leave out
this one. -/
theorem picked_axes (hunits : [nx, ny, nz].count 1 = 1) :
    [if nx ≠ 1 then nx else ny, if nx ≠ 1 ∧ ny ≠ 1 then ny else nz] =
      [nx, ny, nz].filter (· != 1) := by
  by_cases hx : nx = 1 <;> by_cases hy : ny = 1 <;> by_cases hz : nz = 1 <;>
    simp_all

theorem exists_ofAxes_of_supported (hsupported : Supported nx ny nz) :
    ∃ shape, ofAxes nx ny nz = .ok shape ∧
      shape.axes = [nx, ny, nz].filter (· != 1) := by
  obtain ⟨⟨hnx, hny, hnz⟩, hunits⟩ := hsupported
  rcases Nat.le_one_iff_eq_zero_or_eq_one.mp hunits with hnone | hone
  · refine ⟨_, ofAxes_of_volume hnx hny hnz hnone, ?_⟩
    have hall : ∀ axis ∈ [nx, ny, nz], (axis != 1) = true := by
      intro axis haxis
      rw [bne_iff_ne]
      rintro rfl
      exact List.count_eq_zero.mp hnone haxis
    exact (List.filter_eq_self.mpr hall).symm
  · exact ⟨_, ofAxes_of_plane hnx hny hnz hone, picked_axes hone⟩

/-! ## The values of a shape -/

theorem size_eq_prod (shape : GridShape) : shape.size = shape.axes.prod := by
  cases shape with
  | plane n1 n2 => simp [size, axes]
  | volume nx ny nz => simp [size, axes, Nat.mul_assoc]

theorem checkSize_eq_ok_iff {values : ℕ} :
    shape.checkSize values = .ok () ↔ values = shape.size := by
  unfold checkSize
  split <;> simp_all

/-- The product of the first axes only grows with the axes behind them. -/
theorem prod_le_size_of_isPrefix {front : List ℕ}
    (hpositive : ∀ axis ∈ shape.axes, 0 < axis) (hfront : front <+: shape.axes) :
    front.prod ≤ shape.size := by
  obtain ⟨back, hback⟩ := hfront
  have hmore : 0 < back.prod := by
    apply List.prod_pos
    intro axis haxis
    exact hpositive axis (hback ▸ List.mem_append_right front haxis)
  rw [size_eq_prod, ← hback, List.prod_append]
  exact Nat.le_mul_of_pos_right _ hmore

/-- Three axis sizes make a shape exactly if none is zero and at most one is
one.  The shape has the axes that are not the unit axis, in their order, and
the values that the sizes multiply to, which is the only number of values that
it accepts; no product on the way there leaves the range of the last one.
Every refusal names the three sizes. -/
theorem ofAxes_outcome (nx ny nz : ℕ) :
    ((∃ shape, ofAxes nx ny nz = .ok shape) ↔
      (nx ≠ 0 ∧ ny ≠ 0 ∧ nz ≠ 0) ∧ [nx, ny, nz].count 1 ≤ 1) ∧
    (∀ shape, ofAxes nx ny nz = .ok shape →
      shape.axes = [nx, ny, nz].filter (· != 1) ∧
        (∀ axis ∈ shape.axes, 2 ≤ axis) ∧
        shape.size = nx * ny * nz ∧
        (∀ values, shape.checkSize values = .ok () ↔ values = nx * ny * nz) ∧
        (nx * ny * nz < 2 ^ 64 →
          ∀ front, front <+: shape.axes → front.prod < 2 ^ 64)) ∧
    ∀ fault, ofAxes nx ny nz = .error fault →
      fault = .unsupportedShape nx ny nz := by
  by_cases hsupported : Supported nx ny nz
  · obtain ⟨shape, hshape, haxes⟩ := exists_ofAxes_of_supported hsupported
    have hsize : shape.size = nx * ny * nz := by
      rw [size_eq_prod, haxes, List.prod_filter_bne_one]
      simp [Nat.mul_assoc]
    have hlarge : ∀ axis ∈ shape.axes, 2 ≤ axis := by
      obtain ⟨⟨hnx, hny, hnz⟩, -⟩ := hsupported
      intro axis haxis
      rw [haxes, List.mem_filter, bne_iff_ne] at haxis
      obtain ⟨hmem, hunit⟩ := haxis
      have hnonzero : axis ≠ 0 := by
        rintro rfl
        simp [hnx.symm, hny.symm, hnz.symm] at hmem
      omega
    rw [hshape]
    refine ⟨⟨fun _ => hsupported, fun _ => ⟨shape, rfl⟩⟩, ?_, nofun⟩
    rintro _ ⟨⟩
    refine ⟨haxes, hlarge, hsize, ?_, ?_⟩
    · intro values
      rw [checkSize_eq_ok_iff, hsize]
    · intro hfits front hfront
      have hpositive : ∀ axis ∈ shape.axes, 0 < axis := fun axis haxis =>
        Nat.zero_lt_of_lt (hlarge axis haxis)
      have hle := prod_le_size_of_isPrefix hpositive hfront
      rw [hsize] at hle
      exact Nat.lt_of_le_of_lt hle hfits
  · rw [ofAxes_of_not_supported hsupported]
    refine ⟨⟨nofun, fun hsizes => absurd hsizes hsupported⟩, nofun, ?_⟩
    rintro _ ⟨⟩
    rfl

example : ofAxes 4 1 6 = .ok (.plane 4 6) := by decide

end PackedTopology.GridShape
