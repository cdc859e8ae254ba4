import PackedTopology.Fault
import PackedTopology.Zlib.Stream

/-!
# Compression into buffers of a given size

The caller says how large the buffer is.  A stream that does not fit is
refused, and so is data that does not.  The bound is large enough for the
stream of any data of a given length.
-/

namespace PackedTopology.Zlib

def highestLevel : Nat :=
  9

def bound (length : Nat) : Nat :=
  length + (length >>> 12) + (length >>> 14) + (length >>> 25) + 13

/-- Compression with the stream that `choose` makes for a level and some
data. -/
def compressIntoBy (choose : Nat → List UInt8 → List UInt8) (room : Nat)
    (data : List UInt8) (level : Nat) : Except Fault (List UInt8) :=
  if highestLevel < level then
    .error (.backend .deflate s!"compression level {level} out of range")
  else
    let stream := choose level data
    if room < stream.length then
      .error (.backend .deflate <|
        s!"destination of {room} bytes too small " ++
          s!"for {data.length} input bytes")
    else
      .ok stream

/-- Compression in plain blocks, at every level. -/
def compressInto : Nat → List UInt8 → Nat → Except Fault (List UInt8) :=
  compressIntoBy fun _ => compress

def Trouble.reason (room : Nat) : Trouble → String
  | .corrupt => "deflate decompression error"
  | .exhausted | .full => s!"stream did not end within {room} output bytes"

def decompressInto (room : Nat) (stream : List UInt8) :
    Except Fault (List UInt8) :=
  match decompress room stream with
  | .ok data => .ok data
  | .error trouble => .error (.backend .deflate (trouble.reason room))

end PackedTopology.Zlib
