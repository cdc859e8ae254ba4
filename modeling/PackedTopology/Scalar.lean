/-!
# Scalar values

A scalar is a 64-bit pattern of the binary floating-point format with one
sign bit, eleven exponent bits and fifty-two fraction bits.  Patterns are
kept as they are, so that the two zeros and the many not-a-numbers stay
apart.  Two orders matter: the total order of patterns, which arranges
tables, and the numerical order, in which the zeros are equal and a
not-a-number is comparable to nothing.
-/

namespace PackedTopology

/-- A binary64 value, given by its bits. -/
structure Scalar where
  bits : UInt64
  deriving DecidableEq, Repr, Inhabited

namespace Scalar

/-- The sign bit alone, as a number. -/
def signBit : Nat :=
  0x8000000000000000

def negative (x : Scalar) : Bool :=
  signBit ≤ x.bits.toNat

/-- The bits below the sign, as a number. -/
def magnitude (x : Scalar) : Nat :=
  x.bits.toNat % signBit

def infiniteMagnitude : Nat :=
  0x7ff0000000000000

def ofParts (negative : Bool) (magnitude : Nat) : Scalar :=
  ⟨UInt64.ofNat ((if negative then signBit else 0) + magnitude % signBit)⟩

/-- A pattern above infinity is not a number. -/
def IsNaN (x : Scalar) : Prop :=
  infiniteMagnitude < x.magnitude

instance (x : Scalar) : Decidable x.IsNaN :=
  inferInstanceAs (Decidable (_ < _))

/-- A pattern below infinity is a real number. -/
def IsFinite (x : Scalar) : Prop :=
  x.magnitude < infiniteMagnitude

instance (x : Scalar) : Decidable x.IsFinite :=
  inferInstanceAs (Decidable (_ < _))

/-- The place of a pattern in the total order: negative patterns come first,
the larger magnitude before the smaller. -/
def rank (x : Scalar) : Int :=
  if x.negative then -(x.magnitude : Int) - 1 else x.magnitude

/-- The place of a number in the numerical order; both zeros share one. -/
def position (x : Scalar) : Int :=
  if x.negative then -(x.magnitude : Int) else x.magnitude

/-- The numerical order.  It is false as soon as one side is not a number. -/
def Below (x y : Scalar) : Prop :=
  ¬x.IsNaN ∧ ¬y.IsNaN ∧ x.position < y.position

instance (x y : Scalar) : Decidable (x.Below y) :=
  inferInstanceAs (Decidable (_ ∧ _))

/-! ## The total order tells patterns apart -/

theorem bits_eq_parts (x : Scalar) :
    x.bits.toNat = (if x.negative then signBit else 0) + x.magnitude := by
  have hbits : x.bits.toNat < 2 ^ 64 := x.bits.toNat_lt
  unfold negative magnitude signBit
  split <;> simp_all <;> omega

theorem magnitude_lt (x : Scalar) : x.magnitude < signBit :=
  Nat.mod_lt _ (by decide)

theorem rank_injective {x y : Scalar} (h : x.rank = y.rank) : x = y := by
  have hx := bits_eq_parts x
  have hy := bits_eq_parts y
  have hbits : x.bits.toNat = y.bits.toNat := by
    unfold rank at h
    rw [hx, hy]
    cases hxn : x.negative <;> cases hyn : y.negative <;>
      simp only [hxn, hyn, Bool.false_eq_true, if_false, if_true] at h ⊢ <;>
      omega
  cases x
  cases y
  simpa [UInt64.toNat_inj] using hbits

end Scalar

end PackedTopology
