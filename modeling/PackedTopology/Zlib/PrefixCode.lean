import PackedTopology.Zlib.Decoding

/-!
# Prefix codes

A code is given by the length of the code word of each symbol; length zero
means that the symbol has none.  Words of one length are consecutive numbers
in the order of their symbols, and they follow the words that are shorter.  A
code is complete if its words use up the whole space of words.
-/

namespace PackedTopology.Zlib

/-- The symbols by the length of their words: the first row has the symbols
with words of one bit. -/
structure PrefixCode where
  rows : List (Array Nat)
  deriving DecidableEq, Repr

namespace PrefixCode

/-- The symbols whose words have a given length, in order. -/
def symbolsOf (lengths : Array Nat) (length : Nat) : Array Nat :=
  (Array.range lengths.size).filter fun symbol => lengths[symbol]? = some length

/-- The length of the longest word, or one bit if there is no word. -/
def longest (lengths : Array Nat) : Nat :=
  lengths.foldl max 1

def ofLengths (lengths : Array Nat) : PrefixCode :=
  ⟨(List.range (longest lengths)).map fun shorter =>
    symbolsOf lengths (shorter + 1)⟩

def used (code : PrefixCode) : Nat :=
  code.rows.foldl (fun count row => count + row.size) 0

/-- How many words of the longest length the rows use up, the first one being
`longer` bits shorter than that. -/
def spaceOf : List (Array Nat) → Nat → Nat
  | [], _ => 0
  | row :: rows, longer => (row.size <<< longer) + spaceOf rows (longer - 1)

def isComplete (code : PrefixCode) : Bool :=
  spaceOf code.rows (code.rows.length - 1) = 1 <<< code.rows.length

/-- Whether the code is complete, or lacks one of the two words of one bit, or
both. -/
def isUsable (code : PrefixCode) : Bool :=
  code.isComplete || (code.rows.length ≤ 1 && code.used ≤ 1)

/-- Reads on until the bits read make up a word.  So far they are the number
`read`, and the words of the next row start at twice `free`. -/
def symbolFrom : List (Array Nat) → (read free : Nat) → Decoding Nat
  | [], _, _ => throw .corrupt
  | row :: rows, read, free => do
      let read := 2 * read + (← Decoding.bit).toNat
      let first := 2 * free
      match row[read - first]? with
      | some symbol => return symbol
      | none => symbolFrom rows read (first + row.size)

def symbol (code : PrefixCode) : Decoding Nat :=
  symbolFrom code.rows 0 0

end PrefixCode

end PackedTopology.Zlib
