import PackedTopology.Segmentation.Packed

/-!
# Segmentation records

A record is a header, two words with the vertex and the segment count, and the
packed ids.  Any segment count that has a field width fits its header field,
so only the vertex count can be too large for a record.

The header goes out before the ids are checked: a record whose ids are
refused leaves its header behind.
-/

namespace PackedTopology.Segmentation

/-- The counts that unpacking needs to be told. -/
structure Header where
  vertices : UInt32
  segments : UInt32
  deriving DecidableEq, Repr

namespace Header

def size : Nat :=
  8

def width (header : Header) : Except Fault Nat :=
  fieldWidth header.segments.toNat

def words (header : Header) : Except Fault Nat :=
  header.width.map (wordCount header.vertices.toNat)

def recordSize (header : Header) : Except Fault Nat :=
  header.words.map fun words => size + 4 * words

def write (header : Header) : Action Writer Nat := do
  Writer.put header.vertices
  Writer.put header.segments
  return size

def read : Action Reader Header := do
  let vertices ← Reader.take UInt32 .segmentationHeader
  let segments ← Reader.take UInt32 .segmentationHeader
  return ⟨vertices, segments⟩

end Header

/-- A count as a field of a region, if the field can hold it. -/
def countField (region : Region) (count : Nat) : Except Fault UInt32 :=
  if count < UInt32.size then
    .ok (UInt32.ofNat count)
  else
    .error (.countOverflow region count)

def write (ids : List UInt32) (segments : Nat) : Action Writer Nat := do
  let vertices ← Action.check (countField .segmentationHeader ids.length)
  let _ ← Action.check (fieldWidth segments)
  let header ← Header.write ⟨vertices, UInt32.ofNat segments⟩
  let packed ← encode ids segments
  return header + packed

/-- Writes a record of `count` equal ids.  The count is looked at before the
list is made, so that a count without a record costs nothing. -/
def writeReplicate (count : Nat) (id : UInt32) (segments : Nat) :
    Action Writer Nat := do
  let _ ← Action.check (countField .segmentationHeader count)
  write (List.replicate count id) segments

theorem writeReplicate_eq (count : Nat) (id : UInt32) (segments : Nat)
    (writer : Writer) :
    (writeReplicate count id segments).step writer =
      (write (List.replicate count id) segments).step writer := by
  unfold writeReplicate
  rw [Action.step_bind, Action.step_check]
  cases hcount : countField .segmentationHeader count with
  | error fault =>
      rw [write, Action.step_bind, Action.step_check, List.length_replicate,
        hcount]
  | ok vertices => rfl

/-- What a record says: its header, its ids and its bytes. -/
structure Record where
  header : Header
  ids : List UInt32
  size : Nat
  deriving DecidableEq, Repr

/-- Reads a record, refusing more vertices than the limit, if there is one,
before any of its words is read. -/
def read (limit : Option Nat) : Action Reader Record := do
  let header ← Header.read
  let declared := header.vertices.toNat
  match limit with
  | some bound =>
      if bound < declared then throw (.limitExceeded declared bound)
  | none => pure ()
  let (ids, packed) ← decode declared header.segments.toNat
  return ⟨header, ids, Header.size + packed⟩

end PackedTopology.Segmentation
