import Mathlib.Algebra.BigOperators.Group.List.Basic
import Mathlib.Algebra.Order.Ring.Nat
import PackedTopology.Zlib.Stream

/-!
# The format of compressed streams

Whatever a compressor makes of some data, its stream has one form.  Here this
form is told from the side of the data, without reading a stream: which words
a code has, which bits may stand for symbols, copies, descriptions of codes and
blocks, and which bytes are a whole stream of some data.  A compressor is free
to choose the blocks, the codes and the copies.

Relations on bits also tell the bytes produced before and after them, and where
needed the position of the first bit in the stream.
-/

namespace PackedTopology.Zlib

/-- The lowest bits of a number, lowest first. -/
def lowBits (count value : ℕ) : List Bool :=
  (List.range count).map value.testBit

/-! ## Words of a code -/

/-- The number of a word, the first bit of which is the highest. -/
def wordNumber (word : List Bool) : ℕ :=
  word.foldl (fun number bit => 2 * number + bit.toNat) 0

/-- The number behind all words of up to some length, when symbols have words of
the given lengths, as a number of as many bits. -/
def nextWord (lengths : List ℕ) : ℕ → ℕ
  | 0 => 0
  | length + 1 => 2 * nextWord lengths length + lengths.count (length + 1)

/-- Words of one length are consecutive numbers in the order of their symbols,
and they follow the words that are shorter. -/
structure IsWord (lengths : List ℕ) (symbol : ℕ) (word : List Bool) : Prop where
  ne_nil : word ≠ []
  length_eq : lengths[symbol]? = some word.length
  number_eq : wordNumber word =
    2 * nextWord lengths (word.length - 1) +
      (lengths.take symbol).count word.length

/-- How many words of `longest` bits start with one of the words. -/
def wordSpace (lengths : List ℕ) (longest : ℕ) : ℕ :=
  ((lengths.filter (0 < ·)).map fun length => 2 ^ (longest - length)).sum

/-- Every long word starts with a word of the code, and no two of them do. -/
def AreComplete (lengths : List ℕ) : Prop :=
  ∃ longest, (∀ length ∈ lengths, length ≤ longest) ∧
    wordSpace lengths longest = 2 ^ longest

/-- A code is complete, or it has no more than one word, of one bit. -/
def AreUsable (lengths : List ℕ) : Prop :=
  AreComplete lengths ∨
    (∀ length ∈ lengths, length ≤ 1) ∧ lengths.count 1 ≤ 1

/-! ## Codes of a block -/

/-- The lengths of the words for symbols and for distances. -/
structure BlockLengths where
  symbols : List ℕ
  distances : List ℕ

namespace BlockLengths

def fixed : BlockLengths :=
  ⟨List.replicate 144 8 ++ List.replicate 112 9 ++ List.replicate 24 7 ++
      List.replicate 8 8,
    List.replicate 32 5⟩

/-- The lengths of the words for lengths, from those that are stored. -/
def ofStored (stored : List ℕ) : List ℕ :=
  (List.range BlockCodes.lengthOrder.length).map fun symbol =>
    stored.getD (BlockCodes.lengthOrder.idxOf symbol) 0

/-- The lengths that a symbol and the bits behind it stand for, after `last`. -/
inductive Stretch : (last : Option ℕ) → (symbol : ℕ) → List Bool → List ℕ → Prop
  | length {last symbol} : symbol < 16 → Stretch last symbol [] [symbol]
  | again {length extra} : extra < 4 →
      Stretch (some length) 16 (lowBits 2 extra)
        (List.replicate (3 + extra) length)
  | zeros {last extra} : extra < 8 →
      Stretch last 17 (lowBits 3 extra) (List.replicate (3 + extra) 0)
  | manyZeros {last extra} : extra < 128 →
      Stretch last 18 (lowBits 7 extra) (List.replicate (11 + extra) 0)

/-- Bits that stand for lengths, stretch by stretch. -/
inductive Stretches (code : List ℕ) : List ℕ → List Bool → List ℕ → Prop
  | none {lengths} : Stretches code lengths [] lengths
  | more {lengths final added symbol word extra bits} :
      IsWord code symbol word → Stretch lengths.getLast? symbol extra added →
        Stretches code (lengths ++ added) bits final →
          Stretches code lengths (word ++ extra ++ bits) final

/-- Bits that describe the codes of a block: how many lengths there are for
symbols, for distances and for lengths themselves, then these lengths. -/
structure Described (codes : BlockLengths) (description : List Bool) : Prop where
  symbols_le : 257 ≤ codes.symbols.length ∧ codes.symbols.length ≤ 286
  distances_le : 1 ≤ codes.distances.length ∧ codes.distances.length ≤ 30
  usable : AreUsable codes.symbols ∧ AreUsable codes.distances
  exists_bits : ∃ (stored : List ℕ) (bits : List Bool),
    (4 ≤ stored.length ∧ stored.length ≤ 19) ∧ (∀ length ∈ stored, length < 8) ∧
      AreComplete (ofStored stored) ∧
      Stretches (ofStored stored) [] bits (codes.symbols ++ codes.distances) ∧
      description = lowBits 5 (codes.symbols.length - 257) ++
        lowBits 5 (codes.distances.length - 1) ++
        lowBits 4 (stored.length - 4) ++ stored.flatMap (lowBits 3) ++ bits

end BlockLengths

/-! ## Symbols of a block -/

/-- A value from a table: a place, and bits that lengthen its least value. -/
def Lengthens (table : Array (ℕ × ℕ)) (place : ℕ) (bits : List Bool)
    (value : ℕ) : Prop :=
  ∃ least extra count, table[place]? = some (least, count) ∧
    extra < 2 ^ count ∧ bits = lowBits count extra ∧ value = least + extra

/-- Each byte is the one produced `distance` bytes before it, which may be one
of these bytes too. -/
def Repeats (output : List UInt8) (distance : ℕ) (added : List UInt8) : Prop :=
  ∀ i, i < added.length →
    (output ++ added)[output.length + i]? =
      (output ++ added)[output.length + i - distance]?

/-- Bits that stand for bytes and copies, up to the end of a block. -/
inductive Symbols (codes : BlockLengths) :
    List UInt8 → List Bool → List UInt8 → Prop
  | done {output word} : IsWord codes.symbols endOfBlock word →
      Symbols codes output word output
  | byte {output final byte word bits} :
      IsWord codes.symbols byte.toNat word →
        Symbols codes (output ++ [byte]) bits final →
          Symbols codes output (word ++ bits) final
  | copy {output final added place far distance word extra farWord farExtra bits} :
      IsWord codes.symbols (endOfBlock + 1 + place) word →
        Lengthens copyLengths place extra added.length →
        IsWord codes.distances far farWord →
        Lengthens copyDistances far farExtra distance →
        distance ≤ output.length → Repeats output distance added →
        Symbols codes (output ++ added) bits final →
          Symbols codes output (word ++ extra ++ (farWord ++ farExtra) ++ bits)
            final

/-! ## Blocks and streams -/

/-- Bits of one block, from a position in the stream.  Plain bytes start at the
next border of a byte. -/
inductive Block : ℕ → List UInt8 → List Bool → List UInt8 → Prop
  | plain {position output padding bytes} :
      padding.length < 8 → (position + 2 + padding.length) % 8 = 0 →
        bytes.length ≤ blockLimit →
          Block position output
            (lowBits 2 0 ++ padding ++ lowBits 16 bytes.length ++
              lowBits 16 (blockLimit - bytes.length) ++
              bytes.flatMap Bits.ofByte)
            (output ++ bytes)
  | fixed {position output final bits} :
      Symbols .fixed output bits final →
        Block position output (lowBits 2 1 ++ bits) final
  | described {position output final codes description bits} :
      BlockLengths.Described codes description →
        Symbols codes output bits final →
          Block position output (lowBits 2 2 ++ description ++ bits) final

/-- Blocks with a mark in front of each one, set for the last one only. -/
inductive Blocks : ℕ → List UInt8 → List Bool → List UInt8 → Prop
  | last {position output final bits} :
      Block (position + 1) output bits final →
        Blocks position output (true :: bits) final
  | more {position output middle final bits rest} :
      Block (position + 1) output bits middle →
        Blocks (position + 1 + bits.length) middle rest final →
          Blocks position output (false :: bits ++ rest) final

/-- A whole stream of some data: two bytes in front, blocks that produce the
data, padded to whole bytes, and the checksum. -/
def IsStreamOf (data stream : List UInt8) : Prop :=
  ∃ (method flags : UInt8) (body : List UInt8) (bits padding : List Bool),
    stream = method :: flags :: body ++ bigEndian 4 (checksum data) ∧
      isHeader method.toNat flags.toNat = true ∧
      body.flatMap Bits.ofByte = bits ++ padding ∧ padding.length < 8 ∧
      Blocks 16 [] bits data

end PackedTopology.Zlib
