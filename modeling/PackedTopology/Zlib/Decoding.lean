import PackedTopology.Zlib.Bits

/-!
# Decoding into a buffer

Decoding takes bits and fills a buffer of a given size from its start.  It
stops at the first thing that goes wrong: the bits make no sense, they run
out, or a byte is due and the buffer is full.
-/

namespace PackedTopology.Zlib

/-- Why decoding stopped before the end of the stream. -/
inductive Trouble
  | corrupt
  | exhausted
  | full
  deriving DecidableEq, Repr

/-- The bits to come, the bytes produced and the room for all of them. -/
structure Progress where
  bits : Bits
  output : Array UInt8
  room : Nat

abbrev Decoding (α : Type) : Type :=
  StateT Progress (Except Trouble) α

namespace Decoding

def bit : Decoding Bool := do
  let progress ← get
  match progress.bits.next? with
  | some (bit, bits) =>
      set { progress with bits }
      return bit
  | none => throw .exhausted

def number : Nat → Decoding Nat
  | 0 => return 0
  | count + 1 => do
      let low ← bit
      let high ← number count
      return low.toNat + 2 * high

def align : Decoding Unit :=
  modify fun progress => { progress with bits := progress.bits.align }

def emit (byte : UInt8) : Decoding Unit := do
  let progress ← get
  if progress.output.size < progress.room then
    set { progress with output := progress.output.push byte }
  else
    throw .full

/-- Produces the byte that was produced `distance` bytes ago, a number of
times. -/
def repeatBack (distance : Nat) : Nat → Decoding Unit
  | 0 => return
  | count + 1 => do
      let output := (← get).output
      match output[output.size - distance]? with
      | some byte =>
          emit byte
          repeatBack distance count
      | none => throw .corrupt

def ensure (holds : Bool) : Decoding Unit :=
  if holds then return else throw .corrupt

end Decoding

end PackedTopology.Zlib
