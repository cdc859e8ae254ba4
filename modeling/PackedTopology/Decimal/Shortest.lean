import PackedTopology.Decimal.Rounding

/-!
# The fewest digits that read back

The reals that round to a number form an interval around it; its ends belong
to it if the significand is even.  On the grid of the decimals with a given
number of digits only the two neighbours of the number can be nearest to it.
The first grid with a neighbour in the interval gives the fewest digits; of
two such neighbours the nearer one is taken, and a tie is left to the format.
-/

namespace PackedTopology

/-- What a format does with a number halfway between two decimals. -/
inductive Tie
  | even
  | up
  deriving DecidableEq, Repr

/-- A number of decimal digits times a power of ten. -/
structure Decimal where
  digits : Nat
  scale : Int
  deriving DecidableEq, Repr

namespace Decimal

/-- Four times the reach of the interval of a magnitude below it, in units of
its power of two.  Just below a power of two the numbers lie twice as close. -/
def reachBelow (magnitude : Nat) : Nat :=
  if magnitude % Nat.pow 2 (Scalar.significandBits - 1) = 0 ∧
      1 < Scalar.exponentField magnitude then
    1
  else
    2

def RoundsTo (magnitude numerator denominator : Nat) : Prop :=
  let scale := Scalar.exponent magnitude
  let middle := 4 * Scalar.significand magnitude
  let value := 4 * numerator * Nat.pow 2 (-scale).toNat
  let unit := denominator * Nat.pow 2 scale.toNat
  let low := (middle - reachBelow magnitude) * unit
  let high := (middle + 2) * unit
  low < value ∧ value < high ∨
    Scalar.significand magnitude % 2 = 0 ∧ (value = low ∨ value = high)

instance (magnitude numerator denominator : Nat) :
    Decidable (RoundsTo magnitude numerator denominator) :=
  inferInstanceAs (Decidable (_ ∨ _))

def quotient (decimal : Decimal) : Nat × Nat :=
  (decimal.digits * Nat.pow 10 decimal.scale.toNat,
    Nat.pow 10 (-decimal.scale).toNat)

def ReadsBack (decimal : Decimal) (magnitude : Nat) : Prop :=
  RoundsTo magnitude decimal.quotient.1 decimal.quotient.2

instance (decimal : Decimal) (magnitude : Nat) :
    Decidable (decimal.ReadsBack magnitude) :=
  inferInstanceAs (Decidable (RoundsTo _ _ _))

/-- The best decimal on the grid of a power of ten, if one reads back. -/
def onGrid (tie : Tie) (magnitude : Nat) (scale : Int) : Option Decimal :=
  let (numerator, denominator) := Scalar.quotient magnitude
  let top := numerator * Nat.pow 10 (-scale).toNat
  let bottom := denominator * Nat.pow 10 scale.toNat
  let below : Decimal := ⟨top / bottom, scale⟩
  let above : Decimal := ⟨top / bottom + 1, scale⟩
  let twice := 2 * (top % bottom)
  let belowFirst :=
    twice < bottom ∨
      twice = bottom ∧ tie = .even ∧ below.digits % 2 = 0
  if below.ReadsBack magnitude ∧
      (belowFirst ∨ ¬above.ReadsBack magnitude) then
    some below
  else if above.ReadsBack magnitude then
    some above
  else
    none

/-- The position of the decimal point: the least power of ten above a positive
magnitude. -/
def pointOf (magnitude : Nat) : Int :=
  let (numerator, denominator) := Scalar.quotient magnitude
  let guess : Int :=
    ((numerator.log2 : Int) - denominator.log2 - 1) * 1233 / 4096
  let exceeds (power : Int) : Bool :=
    numerator * Nat.pow 10 (-power).toNat <
      denominator * Nat.pow 10 power.toNat
  if exceeds guess then guess
  else if exceeds (guess + 1) then guess + 1
  else guess + 2

/-- Seventeen digits tell all magnitudes apart. -/
def mostDigits : Nat :=
  17

/-- The best decimal with at least `mostDigits - left` digits. -/
def shortestFrom (tie : Tie) (magnitude : Nat) (point : Int) :
    Nat → Option Decimal
  | 0 => onGrid tie magnitude (point - mostDigits)
  | left + 1 =>
      (onGrid tie magnitude (point - (mostDigits - (left + 1) : Nat))).or
        (shortestFrom tie magnitude point left)

/-- The decimal with the fewest digits that reads back as a positive finite
magnitude. -/
def shortest (tie : Tie) (magnitude : Nat) : Decimal :=
  (shortestFrom tie magnitude (pointOf magnitude) (mostDigits - 1)).getD
    ⟨0, 0⟩

end Decimal

end PackedTopology
