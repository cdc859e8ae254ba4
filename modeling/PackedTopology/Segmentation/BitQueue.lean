import PackedTopology.Width

/-!
# The queue of bits between fields and words

Fields enter at the high end and words leave at the low end when packing;
when unpacking, words enter and fields leave.  The queue is one 64-bit number
and the count of its live bits.  Fewer than a word of bits stay behind between
two fields, so a field or a word more never reaches past the sixty-fourth bit.
-/

namespace PackedTopology

/-- Bits on their way from fields to words or back, lowest first. -/
structure BitQueue where
  bits : UInt64
  held : Nat
  deriving DecidableEq, Repr

namespace BitQueue

def empty : BitQueue :=
  ⟨0, 0⟩

/-- Adds `width` bits above those that are held. -/
def append (queue : BitQueue) (value : UInt32) (width : Nat) : BitQueue :=
  ⟨queue.bits ||| (value.toUInt64 <<< UInt64.ofNat queue.held),
    queue.held + width⟩

/-- Takes the lowest word, if a whole word is held. -/
def takeWord (queue : BitQueue) : Option (UInt32 × BitQueue) :=
  if queue.held < wordBits then
    none
  else
    some (queue.bits.toUInt32,
      ⟨queue.bits >>> UInt64.ofNat wordBits, queue.held - wordBits⟩)

def extract (queue : BitQueue) (width : Nat) : UInt32 × BitQueue :=
  let mask := (1 <<< UInt64.ofNat width) - 1
  ((queue.bits &&& mask).toUInt32,
    ⟨queue.bits >>> UInt64.ofNat width, queue.held - width⟩)

/-- What packing keeps between two fields: less than a word, and nothing above
the live bits. -/
structure Settled (queue : BitQueue) : Prop where
  held_lt : queue.held < wordBits
  bits_above : queue.bits.toNat >>> queue.held = 0

theorem empty_settled : empty.Settled :=
  ⟨by decide, by decide⟩

end BitQueue

end PackedTopology
