import PackedTopology.Scalar

/-!
# Rounding to the nearest scalar

A finite magnitude is a significand times a power of two.  A quotient of two
naturals is rounded to the magnitude nearest to it, and a tie goes to the even
one.  The bits of a magnitude count the magnitudes below it, so rounding the
significand up past its last value carries into the exponent by itself.
-/

namespace PackedTopology

/-- The integer nearest to a quotient; a tie goes to the even one. -/
def roundHalfEven (numerator denominator : Nat) : Nat :=
  let quotient := numerator / denominator
  let twice := 2 * (numerator % denominator)
  if twice < denominator ∨ (twice = denominator ∧ quotient % 2 = 0) then
    quotient
  else
    quotient + 1

namespace Scalar

/-- The number of bits of a whole significand. -/
def significandBits : Nat :=
  53

/-- The power of two of the smallest positive number. -/
def leastExponent : Int :=
  -1074

def exponentField (magnitude : Nat) : Nat :=
  magnitude / Nat.pow 2 (significandBits - 1)

/-- The significand of a finite magnitude.  Where the exponent field is not
zero, a leading one is understood. -/
def significand (magnitude : Nat) : Nat :=
  magnitude % Nat.pow 2 (significandBits - 1) +
    if exponentField magnitude = 0 then 0 else Nat.pow 2 (significandBits - 1)

def exponent (magnitude : Nat) : Int :=
  leastExponent + (exponentField magnitude - 1 : Nat)

def quotient (magnitude : Nat) : Nat × Nat :=
  let scale := exponent magnitude
  (significand magnitude * Nat.pow 2 scale.toNat, Nat.pow 2 (-scale).toNat)

def significandAt (numerator denominator : Nat) (scale : Int) : Nat :=
  roundHalfEven (numerator * Nat.pow 2 (-scale).toNat)
    (denominator * Nat.pow 2 scale.toNat)

/-- The grid on which a quotient has a whole significand, or the finest one if
the quotient is too small for that. -/
def gridOf (numerator denominator : Nat) : Int :=
  let guess : Int :=
    numerator.log2 - denominator.log2 - (significandBits : Int)
  let fits := numerator * Nat.pow 2 (-guess).toNat <
    Nat.pow 2 significandBits * (denominator * Nat.pow 2 guess.toNat)
  max leastExponent (if fits then guess else guess + 1)

/-- The magnitude nearest to a quotient, the infinite one past the largest
number. -/
def nearest (numerator denominator : Nat) : Nat :=
  if numerator = 0 then
    0
  else
    let scale := gridOf numerator denominator
    min infiniteMagnitude
      ((scale - leastExponent).toNat * Nat.pow 2 (significandBits - 1) +
        significandAt numerator denominator scale)

/-- The magnitude nearest to a number of decimal digits, scaled by a power of
ten.  Far beyond both ends of the range there is nothing to compute. -/
def nearestDecimal (digits : Nat) (scale : Int) : Nat :=
  let top := scale + (digits.log2 : Int) / 4
  let bottom := scale + (digits.log2 : Int)
  if digits = 0 ∨ bottom < -400 then
    0
  else if 400 < top then
    infiniteMagnitude
  else
    nearest (digits * Nat.pow 10 scale.toNat) (Nat.pow 10 (-scale).toNat)

def productMagnitude (left right : Nat) : Nat :=
  nearest ((quotient left).1 * (quotient right).1)
    ((quotient left).2 * (quotient right).2)

def ratioMagnitude (left right : Nat) : Nat :=
  nearest ((quotient left).1 * (quotient right).2)
    ((quotient left).2 * (quotient right).1)

end Scalar

end PackedTopology
