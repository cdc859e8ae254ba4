/-!
# Blanks around a text

The blanks are the characters that are only space: the usual ones, and the
spaces of other widths and scripts.  Among single bytes only five count.
-/

namespace PackedTopology.Text

/-- Ranges of code points of blanks, ends included. -/
def blankRanges : List (Nat × Nat) :=
  [(0x9, 0xD), (0x20, 0x20), (0x85, 0x85), (0xA0, 0xA0), (0x1680, 0x1680),
    (0x2000, 0x200A), (0x2028, 0x2029), (0x202F, 0x202F), (0x205F, 0x205F),
    (0x3000, 0x3000)]

def isBlank (c : Char) : Bool :=
  blankRanges.any fun range => range.1 ≤ c.toNat && c.toNat ≤ range.2

/-- Whether a byte is a blank: space, tab, line feed, form feed or return. -/
def isBlankByte (byte : UInt8) : Bool :=
  [0x20, 0x9, 0xA, 0xC, 0xD].contains byte.toNat

/-- A list without the elements of a class at both ends. -/
def trim {α : Type} (holds : α → Bool) (elements : List α) : List α :=
  ((elements.dropWhile holds).reverse.dropWhile holds).reverse

end PackedTopology.Text
