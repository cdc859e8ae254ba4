import PackedTopology.Decimal.Layout
import PackedTopology.Index.Record

/-!
# Reports on files

A report tells what the counts at the start of a file say about it.  It is
written either as lines for a reader, with whole numbers and no exponents, or
as an object with its members in alphabetical order.
-/

namespace PackedTopology.Command

/-- Scalars for a reader: no exponent, and no fraction unless it is needed. -/
def readerLayout : NumberLayout :=
  ⟨.up, none, false, false⟩

/-- Scalars in an object keep a fraction and sign every exponent. -/
def memberLayout : NumberLayout :=
  ⟨.even, some (-5, 16), true, true⟩

def objectText (members : List (String × String)) : String :=
  let lines := members.map fun (name, value) => s!"  \"{name}\": {value}"
  "\x7b\n" ++ String.intercalate ",\n" lines ++ "\n\x7d\n"

/-- What is told about a segmentation file. -/
structure SegmentationReport where
  vertices : Nat
  segments : Nat
  width : Nat
  words : Nat
  expectedBytes : Nat
  fileBytes : Nat
  deriving DecidableEq, Repr

namespace SegmentationReport

def ofHeader (header : Segmentation.Header) (fileBytes : Nat) :
    Except Fault SegmentationReport := do
  return {
    vertices := header.vertices.toNat
    segments := header.segments.toNat
    width := ← header.width
    words := ← header.words
    expectedBytes := ← header.recordSize
    fileBytes := fileBytes }

def text (report : SegmentationReport) : String :=
  s!"vertices:         {report.vertices}\n" ++
  s!"segments:         {report.segments}\n" ++
  s!"bits per segment: {report.width}\n" ++
  s!"words:            {report.words}\n" ++
  s!"bytes:            {report.fileBytes} (expected {report.expectedBytes})\n"

def object (report : SegmentationReport) : String :=
  objectText [
    ("bits_per_segment", toString report.width),
    ("expected_bytes", toString report.expectedBytes),
    ("file_bytes", toString report.fileBytes),
    ("segments", toString report.segments),
    ("vertices", toString report.vertices),
    ("words", toString report.words)]

end SegmentationReport

/-- What is told about an index file. -/
structure IndexReport where
  mappings : Nat
  constraints : Nat
  range : Option ValueRange
  bytes : Nat
  deriving DecidableEq, Repr

namespace IndexReport

def ofIndex (index : DecodedIndex) : IndexReport :=
  ⟨index.mappings.size, index.constraints.size, index.constraints.range,
    index.size⟩

def text (report : IndexReport) : String :=
  let range := match report.range with
    | none => "none"
    | some range =>
        s!"[{readerLayout.text range.min}, {readerLayout.text range.max}]"
  s!"mappings:    {report.mappings}\n" ++
  s!"constraints: {report.constraints}\n" ++
  s!"range:       {range}\n" ++
  s!"bytes:       {report.bytes}\n"

/-- An end of the range as a member; only real numbers can be written. -/
def member (value : Option Scalar) : String :=
  match value with
  | some value => if value.IsFinite then memberLayout.text value else "null"
  | none => "null"

def object (report : IndexReport) : String :=
  objectText [
    ("bytes", toString report.bytes),
    ("constraints", toString report.constraints),
    ("mappings", toString report.mappings),
    ("max", member (report.range.map ValueRange.max)),
    ("min", member (report.range.map ValueRange.min))]

end IndexReport

end PackedTopology.Command
