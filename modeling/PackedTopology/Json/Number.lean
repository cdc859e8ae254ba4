import PackedTopology.Decimal.Rounding
import PackedTopology.Json.Cursor

/-!
# Numbers in a text

A number without a point or an exponent is an integer, as long as it fits 64
bits.  Every other number is a scalar.  Its digits are collected in a 64-bit
significand; once that is full, further digits before the point only scale the
number and those after it are ignored.  The scalar is the rounded significand,
multiplied or divided by the rounded power of ten and rounded again.
-/

namespace PackedTopology.Json

/-- A number in a text. -/
inductive Number
  | natural (value : Nat)
  | negative (value : Int)
  | scalar (value : Scalar)
  deriving DecidableEq, Repr

namespace Number

open Reading

/-- One more than the largest significand. -/
def significandBound : Nat :=
  UInt64.size

/-- The largest exponent that is read to its end. -/
def mostExponent : Nat :=
  2147483647

/-- The largest power of ten that a scalar comes near to. -/
def mostPower : Nat :=
  308

def digitValue (byte : UInt8) : Nat :=
  byte.toNat - '0'.toUInt8.toNat

def powerMagnitude (power : Nat) : Nat :=
  Scalar.nearest (Nat.pow 10 power) 1

/-- A magnitude divided by powers of ten, the largest one as often as
needed. -/
def divided (magnitude : Nat) (power : Nat) : Nat :=
  if magnitude = 0 then
    0
  else if power ≤ mostPower then
    Scalar.ratioMagnitude magnitude (powerMagnitude power)
  else
    divided (Scalar.ratioMagnitude magnitude (powerMagnitude mostPower))
      (power - mostPower)
termination_by power
decreasing_by
  simp only [mostPower] at *
  omega

def ofParts (minus : Bool) (significand : Nat) (power : Int) :
    Reading Number := do
  let magnitude := Scalar.nearest significand 1
  if power < 0 then
    return .scalar (.ofParts minus (divided magnitude power.natAbs))
  else if magnitude = 0 then
    return .scalar (.ofParts minus 0)
  else if mostPower < power then
    failHere "number out of range"
  else
    let product :=
      Scalar.productMagnitude magnitude (powerMagnitude power.toNat)
    if product < Scalar.infiniteMagnitude then
      return .scalar (.ofParts minus product)
    else
      failHere "number out of range"

/-- Takes digits into a number that stays below a bound, after those in
`value`, and reports how many there were.  The digit that does not fit any
more stays unread. -/
def takeDigits (bound value : Nat) (cursor : Cursor) : Nat × Nat × Cursor :=
  match hrest : cursor.rest with
  | [] => (value, 0, cursor)
  | byte :: _ =>
      have hshorter := @Cursor.length_advance_lt cursor (by simp [hrest])
      if isDigit byte && 10 * value + digitValue byte < bound then
        let (total, count, after) :=
          takeDigits bound (10 * value + digitValue byte) cursor.advance
        (total, count + 1, after)
      else
        (value, 0, cursor)
termination_by cursor.rest.length

def fittingDigits (bound value : Nat) : Reading (Nat × Nat) := do
  let (total, count, after) := takeDigits bound value (← get)
  set after
  return (total, count)

def atDigit : Reading Bool := do
  return ((← peek).map isDigit).getD false

def atExponent : Reading Bool := do
  let byte ← peek
  return byte = some 'e'.toUInt8 || byte = some 'E'.toUInt8

/-- The sign of an exponent; `true` stands for minus. -/
def exponentSign : Reading Bool := do
  match ← peek with
  | some byte =>
      if byte = '-'.toUInt8 then
        skip
        return true
      else if byte = '+'.toUInt8 then
        skip
        return false
      else
        return false
  | none => return false

def withExponent (minus : Bool) (significand : Nat) (power : Int) :
    Reading Number := do
  skip
  let down ← exponentSign
  match ← next with
  | none => failHere "EOF while parsing a value"
  | some first =>
      if isDigit first then
        let (exponent, _) ←
          fittingDigits (mostExponent + 1) (digitValue first)
        if ← atDigit then
          skip
          if significand ≠ 0 && !down then
            failHere "number out of range"
          else
            let _ ← skipDigits
            return .scalar (.ofParts minus 0)
        else
          ofParts minus significand
            (if down then power - exponent else power + exponent)
      else
        failHere "invalid number"

def afterDigits (minus : Bool) (significand : Nat) (power : Int) :
    Reading Number := do
  if ← atExponent then
    withExponent minus significand power
  else
    ofParts minus significand power

def withFraction (minus : Bool) (significand : Nat) (power : Int) :
    Reading Number := do
  skip
  let (total, count) ← fittingDigits significandBound significand
  if count = 0 && !(← atDigit) then
    match ← peek with
    | some _ => failNext "invalid number"
    | none => failHere "EOF while parsing a value"
  else
    let _ ← skipDigits
    afterDigits minus total (power - count)

/-- The largest magnitude of a negative integer. -/
def mostNegative : Nat :=
  9223372036854775808

/-- An integer without a point or an exponent. -/
def integer (minus : Bool) (significand : Nat) : Number :=
  if !minus then
    .natural significand
  else if significand = 0 ∨ mostNegative < significand then
    .scalar (.ofParts true (Scalar.nearest significand 1))
  else
    .negative (-significand)

/-- What follows the digits before the point. -/
def afterWhole (minus : Bool) (significand : Nat) : Reading Number := do
  if (← peek) = some '.'.toUInt8 then
    withFraction minus significand 0
  else if ← atExponent then
    withExponent minus significand 0
  else
    return integer minus significand

def afterLongWhole (minus : Bool) (significand : Nat) : Reading Number := do
  let dropped ← skipDigits
  if (← peek) = some '.'.toUInt8 then
    withFraction minus significand dropped
  else
    afterDigits minus significand dropped

/-- A number, its sign already read. -/
def read (minus : Bool) : Reading Number := do
  match ← next with
  | none => failHere "EOF while parsing a value"
  | some first =>
      if first = '0'.toUInt8 then
        if ← atDigit then
          failNext "invalid number"
        else
          afterWhole minus 0
      else if isDigit first then
        let (significand, _) ←
          fittingDigits significandBound (digitValue first)
        if ← atDigit then
          afterLongWhole minus significand
        else
          afterWhole minus significand
      else
        failHere "invalid number"

end Number

end PackedTopology.Json
