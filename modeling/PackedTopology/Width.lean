import PackedTopology.Fault

/-!
# Field widths

Ids below a segment count are stored in the bits of the count itself.  The
count must be positive and its bits must fit a word.  Fields are laid side by
side, so a number of fields takes the words that their bits fill, the last
one perhaps only in part.
-/

namespace PackedTopology

def wordBits : Nat :=
  32

def bitLength (n : Nat) : Nat :=
  if n = 0 then 0 else n.log2 + 1

/-- The answer of `bitWidth` where no width makes sense: all bits of a word. -/
def undefinedWidth : Nat :=
  UInt32.size - 1

/-- The bits that tell `n` values apart: none for a single value, and for more
values the digits of their number. -/
def bitWidth (n : Nat) : Nat :=
  if n = 0 then undefinedWidth else if n = 1 then 0 else bitLength n

/-- The width of the field of one id.  A single segment still takes one bit. -/
def fieldWidth (segments : Nat) : Except Fault Nat :=
  if segments = 0 then
    .error (.undefinedWidth segments)
  else if bitLength segments ≤ wordBits then
    .ok (bitLength segments)
  else
    .error (.unsupportedWidth (bitLength segments) segments)

def wordCount (count width : Nat) : Nat :=
  (count * width + (wordBits - 1)) / wordBits

end PackedTopology
