/-!
# Faults of the codecs

A codec refuses its input for one of a few reasons.  Each reason is a
constructor that carries exactly what its wording mentions, and the wording
is one function of the constructor.  What a device says when it refuses a
read or a write is carried along untouched.
-/

namespace PackedTopology

/-- The region of a stream that a field belongs to. -/
inductive Region
  | segmentationHeader
  | segmentationWords
  | mappingCount
  | mappingEntries
  | constraintCount
  | constraintEntries
  deriving DecidableEq, Repr

def Region.title : Region → String
  | .segmentationHeader => "segmentation header"
  | .segmentationWords => "segmentation words"
  | .mappingCount => "mapping count"
  | .mappingEntries => "mapping entries"
  | .constraintCount => "constraint count"
  | .constraintEntries => "constraint entries"

/-- Why a device refused, as far as the advice given to a user depends on it. -/
inductive DeviceError.Cause
  | missing
  | denied
  | endedEarly
  | noProgress
  | other
  deriving DecidableEq, Repr

/-- A refusal of a device, with the text the device gives. -/
structure DeviceError where
  cause : DeviceError.Cause
  text : String
  deriving DecidableEq, Repr

namespace DeviceError

def notFound : DeviceError :=
  ⟨.missing, "No such file or directory (os error 2)"⟩

/-- A path that goes through something other than a folder. -/
def notFolder : DeviceError :=
  ⟨.other, "Not a directory (os error 20)"⟩

def isFolder : DeviceError :=
  ⟨.other, "Is a directory (os error 21)"⟩

def nameTooLong : DeviceError :=
  ⟨.other, "File name too long (os error 36)"⟩

/-- A device without room for another byte. -/
def noSpace : DeviceError :=
  ⟨.other, "No space left on device (os error 28)"⟩

/-- A target that took only a part of what it was given. -/
def partialWrite : DeviceError :=
  ⟨.noProgress, "failed to write whole buffer"⟩

def notText : DeviceError :=
  ⟨.other, "stream did not contain valid UTF-8"⟩

end DeviceError

/-- The optional stages that work on whole buffers. -/
inductive Backend
  | grid
  | deflate
  deriving DecidableEq, Repr

def Backend.title : Backend → String
  | .grid => "grid"
  | .deflate => "deflate"

/-- The reasons for which a codec refuses. -/
inductive Fault
  /-- No segments leave no usable field width. -/
  | undefinedWidth (segments : Nat)
  /-- A field wider than one word. -/
  | unsupportedWidth (width segments : Nat)
  /-- The stream ended before a field that starts at `offset` was complete. -/
  | incomplete (region : Region) (offset needed : Nat)
  /-- An id that the segment count does not admit. -/
  | idOutOfRange (index : Nat) (id : UInt32) (segments : Nat)
  /-- A vertex that a mapping names twice. -/
  | repeatedVertex (vertex : Int32)
  /-- A list too long for its count field. -/
  | countOverflow (region : Region) (count : Nat)
  /-- More vertices than the reader is willing to take. -/
  | limitExceeded (declared limit : Nat)
  /-- Axis sizes that describe neither a plane nor a volume. -/
  | unsupportedShape (nx ny nz : Nat)
  /-- A backend gave up. -/
  | backend (source : Backend) (reason : String)
  /-- The device under a stream refused. -/
  | device (error : DeviceError)
  /-- Settings that cannot be used. -/
  | settings (reason : String)
  deriving DecidableEq, Repr

def Fault.message : Fault → String
  | .undefinedWidth segments => s!"undefined bit width for {segments} segments"
  | .unsupportedWidth width segments =>
      s!"bit width {width} for {segments} segments exceeds 32 bits"
  | .incomplete region offset needed =>
      s!"incomplete stream while reading {region.title}: " ++
        s!"needed {needed} more bytes at offset {offset}"
  | .idOutOfRange index id segments =>
      s!"segment id {id.toNat} at vertex {index} is out of range " ++
        s!"for {segments} segments"
  | .repeatedVertex vertex =>
      s!"vertex {vertex.toInt} appears more than once in the mapping"
  | .countOverflow region count =>
      s!"{count} entries do not fit the {region.title} field"
  | .limitExceeded declared limit =>
      s!"declared {declared} vertices exceeds limit of {limit}"
  | .unsupportedShape nx ny nz => s!"unsupported grid shape {nx}x{ny}x{nz}"
  | .backend source reason => s!"{source.title} backend failure: {reason}"
  | .device error => s!"I/O error: {error.text}"
  | .settings reason => s!"config error: {reason}"

end PackedTopology
