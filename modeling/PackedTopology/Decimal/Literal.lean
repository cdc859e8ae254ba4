import PackedTopology.Decimal.Rounding

/-!
# Numbers written as text

A literal is a sign, digits with at most one point among them, and an
exponent.  Only the digits are required, at least one of them.  Its value is
the scalar nearest to the decimal it denotes.  Infinity and not-a-number are
written as words, in any case.
-/

namespace PackedTopology

/-- Why a text is no literal. -/
inductive LiteralError
  | empty
  | invalid
  deriving DecidableEq, Repr

namespace Literal

def digitValue (c : Char) : Nat :=
  c.toNat - '0'.toNat

def numberOf (digits : List Char) : Nat :=
  digits.foldl (fun number c => 10 * number + digitValue c) 0

/-- The sign in front of a text, and the rest; `true` stands for minus. -/
def splitSign : List Char → Bool × List Char
  | '-' :: rest => (true, rest)
  | '+' :: rest => (false, rest)
  | rest => (false, rest)

/-- The exponent that makes up the rest of a literal: nothing, or a mark, a
sign and digits. -/
def exponentOf : List Char → Option Int
  | [] => some 0
  | mark :: rest =>
      let (minus, digits) := splitSign rest
      if (mark = 'e' ∨ mark = 'E') ∧ digits ≠ [] ∧ digits.all Char.isDigit then
        let number := (numberOf digits : Int)
        some (if minus then -number else number)
      else
        none

/-- The magnitude of digits, a point and an exponent. -/
def magnitudeOf (text : List Char) : Option Nat :=
  let whole := text.takeWhile Char.isDigit
  let afterWhole := text.dropWhile Char.isDigit
  let (fraction, rest) := match afterWhole with
    | '.' :: rest => (rest.takeWhile Char.isDigit, rest.dropWhile Char.isDigit)
    | rest => ([], rest)
  if whole = [] ∧ fraction = [] then
    none
  else
    (exponentOf rest).map fun exponent =>
      Scalar.nearestDecimal (numberOf (whole ++ fraction))
        (exponent - fraction.length)

def wordMagnitude (text : List Char) : Option Nat :=
  match String.ofList (text.map Char.toLower) with
  | "inf" | "infinity" => some Scalar.infiniteMagnitude
  | "nan" => some (Scalar.infiniteMagnitude + 0x8000000000000)
  | _ => none

end Literal

def Scalar.ofLiteral (text : String) : Except LiteralError Scalar :=
  if text.isEmpty then
    .error .empty
  else
    let (minus, body) := Literal.splitSign text.toList
    match (Literal.magnitudeOf body).or (Literal.wordMagnitude body) with
    | some magnitude => .ok (Scalar.ofParts minus magnitude)
    | none => .error .invalid

end PackedTopology
