import PackedTopology.Decimal.Shortest

/-!
# Layouts of decimal text

A scalar is written with the fewest digits that read back.  Where the decimal
point stands, whether a whole number keeps a fraction, and from where on an
exponent is written, is up to the format, which states it in one record.
-/

namespace PackedTopology

/-- The decisions of a format about the text of a number. -/
structure NumberLayout where
  /-- What happens halfway between two decimals. -/
  tie : Tie
  /-- Point positions written without an exponent: above the first and up to
  the second.  Without them there is never an exponent. -/
  positional : Option (Int × Int)
  /-- Whether a whole number ends in a point and a zero. -/
  keepFraction : Bool
  /-- Whether a positive exponent has a sign. -/
  signExponent : Bool
  deriving DecidableEq, Repr

namespace NumberLayout

/-- The decimal digits of a number without the zeros at its end. -/
def digitsOf (n : Nat) : List Char :=
  ((Nat.toDigits 10 n).reverse.dropWhile (· = '0')).reverse

def zeros (count : Int) : List Char :=
  List.replicate count.toNat '0'

/-- Digits with the point at a position, without an exponent. -/
def positionalText (layout : NumberLayout) (digits : List Char) (point : Int) :
    List Char :=
  if point ≤ 0 then
    '0' :: '.' :: zeros (-point) ++ digits
  else if point < digits.length then
    digits.take point.toNat ++ '.' :: digits.drop point.toNat
  else
    digits ++ zeros (point - digits.length) ++
      if layout.keepFraction then ['.', '0'] else []

/-- Digits with the point after the first one, and an exponent. -/
def exponentText (layout : NumberLayout) (digits : List Char) (point : Int) :
    List Char :=
  let power := point - 1
  let sign :=
    if power < 0 then ['-'] else if layout.signExponent then ['+'] else []
  digits.take 1 ++ (if digits.length ≤ 1 then [] else '.' :: digits.drop 1) ++
    'e' :: sign ++ Nat.toDigits 10 power.natAbs

def magnitudeText (layout : NumberLayout) (magnitude : Nat) : List Char :=
  let decimal := Decimal.shortest layout.tie magnitude
  let point := decimal.scale + (Nat.toDigits 10 decimal.digits).length
  let digits := digitsOf decimal.digits
  match layout.positional with
  | none => layout.positionalText digits point
  | some (above, upTo) =>
      if above < point ∧ point ≤ upTo then
        layout.positionalText digits point
      else
        layout.exponentText digits point

/-- The text of a scalar.  Not-a-numbers have one text and no sign. -/
def text (layout : NumberLayout) (value : Scalar) : String :=
  if value.IsNaN then
    "NaN"
  else
    let sign := if value.negative then ['-'] else []
    let body :=
      if value.magnitude = 0 then
        '0' :: if layout.keepFraction then ['.', '0'] else []
      else if value.IsFinite then
        layout.magnitudeText value.magnitude
      else
        ['i', 'n', 'f']
    String.ofList (sign ++ body)

end NumberLayout

end PackedTopology
