import PackedTopology.Zlib.PrefixCode

/-!
# Blocks of compressed data

A stream is a sequence of blocks, the last of which is marked.  A block is a
stretch of plain bytes, or a sequence of symbols: bytes, and copies of bytes
produced before.  Symbols are written in prefix codes that are fixed or that
the block itself describes.
-/

namespace PackedTopology.Zlib

open Decoding

/-- The codes of a block: one for bytes and the lengths of copies, one for
their distances. -/
structure BlockCodes where
  symbols : PrefixCode
  distances : PrefixCode

namespace BlockCodes

def fixed : BlockCodes :=
  ⟨.ofLengths (Array.replicate 144 8 ++ Array.replicate 112 9 ++
      Array.replicate 24 7 ++ Array.replicate 8 8),
    .ofLengths (Array.replicate 32 5)⟩

def lengthOrder : List Nat :=
  [16, 17, 18, 0, 8, 7, 9, 6, 10, 5, 11, 4, 12, 3, 13, 2, 14, 1, 15]

/-- The code in which word lengths are stored, with the first `count` words in
storage order. -/
def lengthCode (count : Nat) : Decoding PrefixCode := do
  let stored ← (lengthOrder.take count).mapM fun symbol =>
    return (symbol, ← number 3)
  let lengths := stored.foldl
    (fun lengths (symbol, length) => lengths.setIfInBounds symbol length)
    (Array.replicate lengthOrder.length 0)
  let code := PrefixCode.ofLengths lengths
  ensure code.isComplete
  return code

/-- The lengths that a symbol stands for: one length, or a stretch of the last
one or of zeros. -/
def stretch (last : Option Nat) (symbol : Nat) : Decoding (Array Nat) := do
  if symbol < 16 then
    return Array.replicate 1 symbol
  else if symbol = 16 then
    let count ← number 2
    match last with
    | some length => return Array.replicate (3 + count) length
    | none => throw .corrupt
  else if symbol = 17 then
    return Array.replicate (3 + (← number 3)) 0
  else
    return Array.replicate (11 + (← number 7)) 0

/-- Reads word lengths until `total` are there, after those in `lengths`.  Each
round adds a length, so `total` rounds are enough. -/
def wordLengths (code : PrefixCode) (total : Nat) :
    Nat → Array Nat → Decoding (Array Nat)
  | 0, lengths => return lengths
  | rounds + 1, lengths =>
      if total ≤ lengths.size then
        return lengths
      else do
        let symbol ← code.symbol
        let added ← stretch lengths.back? symbol
        wordLengths code total rounds (lengths ++ added)

def described : Decoding BlockCodes := do
  let symbolCount := 257 + (← number 5)
  let distanceCount := 1 + (← number 5)
  let lengthCount := 4 + (← number 4)
  ensure (symbolCount ≤ 286 && distanceCount ≤ 30)
  let code ← lengthCode lengthCount
  let total := symbolCount + distanceCount
  let lengths ← wordLengths code total total #[]
  ensure (lengths.size = total)
  let symbols := PrefixCode.ofLengths (lengths.extract 0 symbolCount)
  let distances := PrefixCode.ofLengths (lengths.extract symbolCount total)
  ensure (symbols.isUsable && distances.isUsable)
  return ⟨symbols, distances⟩

end BlockCodes

def endOfBlock : Nat :=
  256

/-- The shortest copy of each length symbol and the bits that lengthen it. -/
def copyLengths : Array (Nat × Nat) :=
  #[(3, 0), (4, 0), (5, 0), (6, 0), (7, 0), (8, 0), (9, 0), (10, 0),
    (11, 1), (13, 1), (15, 1), (17, 1), (19, 2), (23, 2), (27, 2), (31, 2),
    (35, 3), (43, 3), (51, 3), (59, 3), (67, 4), (83, 4), (99, 4), (115, 4),
    (131, 5), (163, 5), (195, 5), (227, 5), (258, 0)]

/-- The shortest distance of each distance symbol and the bits that lengthen
it. -/
def copyDistances : Array (Nat × Nat) :=
  #[(1, 0), (2, 0), (3, 0), (4, 0), (5, 1), (7, 1), (9, 2), (13, 2),
    (17, 3), (25, 3), (33, 4), (49, 4), (65, 5), (97, 5), (129, 6), (193, 6),
    (257, 7), (385, 7), (513, 8), (769, 8), (1025, 9), (1537, 9),
    (2049, 10), (3073, 10), (4097, 11), (6145, 11), (8193, 12), (12289, 12),
    (16385, 13), (24577, 13)]

def tabled (table : Array (Nat × Nat)) (place : Nat) : Decoding Nat := do
  match table[place]? with
  | some (least, extra) => return least + (← number extra)
  | none => throw .corrupt

def copy (codes : BlockCodes) (symbol : Nat) : Decoding Unit := do
  let length ← tabled copyLengths (symbol - endOfBlock - 1)
  let distance ← tabled copyDistances (← codes.distances.symbol)
  ensure (distance ≤ (← get).output.size)
  repeatBack distance length

/-- Decodes symbols up to the end of the block.  Each one takes a bit, so the
bits left are rounds enough. -/
def symbols (codes : BlockCodes) : Nat → Decoding Unit
  | 0 => throw .exhausted
  | rounds + 1 => do
      let symbol ← codes.symbols.symbol
      if symbol < endOfBlock then
        emit (UInt8.ofNat symbol)
        symbols codes rounds
      else if symbol = endOfBlock then
        return
      else
        copy codes symbol
        symbols codes rounds

def plainBytes : Nat → Decoding Unit
  | 0 => return
  | count + 1 => do
      let progress ← get
      if progress.output.size < progress.room then
        emit (UInt8.ofNat (← number 8))
        plainBytes count
      else
        throw .full

/-- A block of plain bytes: their count, its complement, and the bytes. -/
def plainBlock : Decoding Unit := do
  align
  let count ← number 16
  let complement ← number 16
  ensure (count + complement = 0xffff)
  plainBytes count

/-- A block, the mark before it already read. -/
def block : Decoding Unit := do
  match ← number 2 with
  | 0 => plainBlock
  | 1 => symbols .fixed ((← get).bits.size + 1)
  | 2 =>
      let codes ← BlockCodes.described
      symbols codes ((← get).bits.size + 1)
  | _ => throw .corrupt

/-- Decodes blocks up to the marked one.  Each one takes a bit. -/
def blocks : Nat → Decoding Unit
  | 0 => throw .exhausted
  | rounds + 1 => do
      let last ← bit
      block
      if last then return else blocks rounds

end PackedTopology.Zlib
