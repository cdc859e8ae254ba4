/-!
# Bits of a byte stream

Bits are taken from each byte lowest first.  A number of several bits has its
lowest bit first too.  What is left of a byte can be dropped, so that whole
bytes follow.
-/

namespace PackedTopology.Zlib

/-- The bits left of a byte, and the bytes after it. -/
structure Bits where
  pending : List Bool
  bytes : List UInt8
  deriving DecidableEq, Repr

namespace Bits

def ofBytes (bytes : List UInt8) : Bits :=
  ⟨[], bytes⟩

/-- The bits of a byte, lowest first. -/
def ofByte (byte : UInt8) : List Bool :=
  (List.range 8).map byte.toNat.testBit

def toList (bits : Bits) : List Bool :=
  bits.pending ++ bits.bytes.flatMap ofByte

def size (bits : Bits) : Nat :=
  bits.pending.length + 8 * bits.bytes.length

def next? (bits : Bits) : Option (Bool × Bits) :=
  match bits.pending with
  | bit :: pending => some (bit, { bits with pending })
  | [] =>
      match bits.bytes with
      | [] => none
      | byte :: bytes =>
          some (byte.toNat.testBit 0, ⟨(ofByte byte).tail, bytes⟩)

def align (bits : Bits) : Bits :=
  { bits with pending := [] }

end Bits

end PackedTopology.Zlib
