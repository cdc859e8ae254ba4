import PackedTopology.Decimal.Literal
import PackedTopology.Text.Digit

/-!
# Cells of a table

A cell holds an integer or a scalar.  Integers are decimal, or hexadecimal
after `0x`, with an optional sign; only a type with negative values takes a
minus.  The first digit that is none, or that leads out of the range of the
type, decides what is wrong with a cell.
-/

namespace PackedTopology.Table

/-- What is wrong with a cell. -/
inductive CellError
  | emptyInteger
  | invalidDigit
  | tooLarge
  | tooSmall
  | emptyScalar
  | invalidScalar
  deriving DecidableEq, Repr

def CellError.message : CellError → String
  | .emptyInteger => "cannot parse integer from empty string"
  | .invalidDigit => "invalid digit found in string"
  | .tooLarge => "number too large to fit in target type"
  | .tooSmall => "number too small to fit in target type"
  | .emptyScalar => "cannot parse float from empty string"
  | .invalidScalar => "invalid float literal"

/-- The values of an integer type. -/
structure IntegerRange where
  least : Int
  most : Int
  deriving DecidableEq, Repr

namespace IntegerRange

def word : IntegerRange :=
  ⟨0, 4294967295⟩

def integer : IntegerRange :=
  ⟨-2147483648, 2147483647⟩

def long : IntegerRange :=
  ⟨0, 18446744073709551615⟩

end IntegerRange

/-- Adds a digit to a number of a range, away from zero. -/
def addDigit (range : IntegerRange) (base : Nat) (minus : Bool) (number : Int)
    (c : Char) : Except CellError Int :=
  match Text.digitIn base c with
  | none => .error .invalidDigit
  | some digit =>
      let next := number * base + if minus then -(digit : Int) else digit
      if next < range.least then .error .tooSmall
      else if range.most < next then .error .tooLarge
      else .ok next

/-- The number that digits with a sign in front stand for. -/
def signedDigits (range : IntegerRange) (base : Nat) (text : List Char) :
    Except CellError Int :=
  match text with
  | [] => .error .emptyInteger
  | ['+'] => .error .invalidDigit
  | ['-'] => .error .invalidDigit
  | '+' :: digits => digits.foldlM (addDigit range base false) 0
  | '-' :: digits =>
      if range.least < 0 then digits.foldlM (addDigit range base true) 0
      else .error .invalidDigit
  | digits => digits.foldlM (addDigit range base false) 0

def integerCell (range : IntegerRange) (text : List Char) :
    Except CellError Int :=
  match text with
  | '0' :: 'x' :: digits => signedDigits range 16 digits
  | digits => signedDigits range 10 digits

def scalarCell (text : List Char) : Except CellError Scalar :=
  (Scalar.ofLiteral (String.ofList text)).mapError fun
    | .empty => .emptyScalar
    | .invalid => .invalidScalar

end PackedTopology.Table
