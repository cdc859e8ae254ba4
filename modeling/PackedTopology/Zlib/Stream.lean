import PackedTopology.Zlib.Inflate

/-!
# Compressed streams

A stream has two bytes in front, which name the method, and a checksum of the
data behind it.  Compression writes the data in plain blocks; decompression
takes blocks of all kinds.  Bytes behind the checksum are not looked at.
-/

namespace PackedTopology.Zlib

/-- The largest prime with sixteen bits. -/
def checksumModulus : Nat :=
  65521

/-- The checksum of some bytes: one more than their sum, and the sum of all
those sums, each within sixteen bits. -/
def checksum (bytes : List UInt8) : Nat :=
  let (low, high) := bytes.foldl
    (fun (low, high) byte =>
      let low := (low + byte.toNat) % checksumModulus
      (low, (high + low) % checksumModulus))
    (1, 0)
  (high <<< 16) + low

/-- A number in bytes, highest first. -/
def bigEndian : Nat → Nat → List UInt8
  | 0, _ => []
  | size + 1, value =>
      UInt8.ofNat (value >>> (8 * size)) :: bigEndian size value

/-- Whether two bytes can stand in front of a stream: a multiple of 31, the
known method, a known window and no dictionary. -/
def isHeader (method flags : Nat) : Bool :=
  (256 * method + flags) % 31 = 0 && method % 16 = 8 && method / 16 ≤ 7 &&
    flags / 32 % 2 = 0

def stream : Decoding Unit := do
  let method ← Decoding.number 8
  let flags ← Decoding.number 8
  Decoding.ensure (isHeader method flags)
  blocks ((← get).bits.size + 1)
  Decoding.align
  let a ← Decoding.number 8
  let b ← Decoding.number 8
  let c ← Decoding.number 8
  let d ← Decoding.number 8
  Decoding.ensure
    (((a * 256 + b) * 256 + c) * 256 + d = checksum (← get).output.toList)

def decompress (room : Nat) (bytes : List UInt8) :
    Except Trouble (List UInt8) :=
  match stream.run ⟨.ofBytes bytes, #[], room⟩ with
  | .ok ((), progress) => .ok progress.output.toList
  | .error trouble => .error trouble

def blockLimit : Nat :=
  0xffff

/-- A count of sixteen bits, lowest byte first. -/
def countBytes (count : Nat) : List UInt8 :=
  [UInt8.ofNat count, UInt8.ofNat (count / 256)]

def plainBlockBytes (last : Bool) (bytes : List UInt8) : List UInt8 :=
  UInt8.ofNat last.toNat :: countBytes bytes.length ++
    countBytes (blockLimit - bytes.length) ++ bytes

/-- Plain blocks of some bytes, the last one marked. -/
def plainBlocks (bytes : List UInt8) : List UInt8 :=
  if hlong : blockLimit < bytes.length then
    have hshorter : bytes.length - blockLimit < bytes.length :=
      Nat.sub_lt (Nat.zero_lt_of_lt hlong) (by decide)
    plainBlockBytes false (bytes.take blockLimit) ++
      plainBlocks (bytes.drop blockLimit)
  else
    plainBlockBytes true bytes
termination_by bytes.length
decreasing_by
  rwa [List.length_drop]

def compress (bytes : List UInt8) : List UInt8 :=
  [0x78, 0x01] ++ plainBlocks bytes ++ bigEndian 4 (checksum bytes)

end PackedTopology.Zlib
