import PackedTopology.Segmentation.BitQueue
import PackedTopology.Stream.Words

/-!
# Packed segmentations

The ids of a segmentation are laid into words side by side, lowest bits first
and without gaps: a field that does not fit the rest of a word goes on in the
next one.  Only the last word is padded, with zeros.  The words do not say how
many ids they hold or how wide the fields are, so unpacking is told both.

All ids are checked before the first word goes out.  Unpacking takes a word
only when the bits at hand do not make up a field, so it takes exactly the
words that the fields reach into.
-/

namespace PackedTopology.Segmentation

/-- Words packed so far and the bits that wait for the next one. -/
structure Packer where
  words : Array UInt32
  queue : BitQueue
  deriving DecidableEq, Repr

namespace Packer

def start : Packer :=
  ⟨#[], .empty⟩

def push (width : Nat) (packer : Packer) (id : UInt32) : Packer :=
  let filled := packer.queue.append id width
  match filled.takeWord with
  | some (word, queue) => ⟨packer.words.push word, queue⟩
  | none => ⟨packer.words, filled⟩

def pushAll (width : Nat) (ids : List UInt32) : Packer :=
  ids.foldl (push width) start

/-- The words, the last one padded. -/
def finish (packer : Packer) : Array UInt32 :=
  if packer.queue.held = 0 then
    packer.words
  else
    packer.words.push packer.queue.bits.toUInt32

end Packer

def wordsOf (width : Nat) (ids : List UInt32) : Array UInt32 :=
  (Packer.pushAll width ids).finish

/-- Refuses the first id that is not below the segment count. -/
def checkIds (ids : List UInt32) (segments : Nat) : Except Fault Unit :=
  match ids.findIdx? fun id => segments ≤ id.toNat with
  | none => .ok ()
  | some index =>
      .error (.idOutOfRange index (ids.getD index 0) segments)

def pack (ids : List UInt32) (segments : Nat) :
    Except Fault (Array UInt32) := do
  let width ← fieldWidth segments
  checkIds ids segments
  return wordsOf width ids

def encode {σ : Type} [WordSink σ] (ids : List UInt32) (segments : Nat) :
    Action σ Nat := do
  let words ← Action.check (pack ids segments)
  WordSink.putWords words.toList
  return 4 * words.size

/-- Ids unpacked so far, the words taken for them and the bits left over. -/
structure Unpacker where
  ids : Array UInt32
  words : Nat
  queue : BitQueue
  deriving DecidableEq, Repr

namespace Unpacker

def start : Unpacker :=
  ⟨#[], 0, .empty⟩

/-- Takes another word if the bits at hand do not make up a field. -/
def refill {σ : Type} [WordSource σ] (width : Nat) (unpacker : Unpacker) :
    Action σ Unpacker :=
  if unpacker.queue.held < width then do
    let word ← WordSource.nextWord .segmentationWords
    return { unpacker with
      words := unpacker.words + 1
      queue := unpacker.queue.append word wordBits }
  else
    return unpacker

def pull (width : Nat) (unpacker : Unpacker) : Unpacker :=
  let (id, queue) := unpacker.queue.extract width
  { unpacker with ids := unpacker.ids.push id, queue := queue }

def run {σ : Type} [WordSource σ] (width : Nat) :
    Nat → Unpacker → Action σ Unpacker
  | 0, unpacker => return unpacker
  | count + 1, unpacker => do
      let ready ← unpacker.refill width
      run width count (ready.pull width)

end Unpacker

/-- Unpacks `vertices` ids from a source and reports the bytes of the words it
took. -/
def decode {σ : Type} [WordSource σ] (vertices segments : Nat) :
    Action σ (List UInt32 × Nat) := do
  let width ← Action.check (fieldWidth segments)
  let unpacker ← Unpacker.run width vertices .start
  return (unpacker.ids.toList, 4 * unpacker.words)

def unpack (words : List UInt32) (vertices segments : Nat) :
    Except Fault (List UInt32) :=
  ((decode vertices segments).step (WordCursor.ofList words)).1.map Prod.fst

end PackedTopology.Segmentation
