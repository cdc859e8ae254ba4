/-!
# Records of a table

A table is a sequence of records, each on a line of its own; empty lines are
skipped.  Commas part the fields of a record.  A field that starts with a
quote goes on to the next single quote, whatever comes before that, and a
double quote inside it stands for one; what follows the closing quote is taken
as it is.  A line ends with a line feed, a return, or both.

A record is found at the place where the record before it ended, so empty
lines in between do not move it.  A line feed that follows a return belongs to
what comes next.
-/

namespace PackedTopology.Table

/-- Where a record is found: its number and the bytes before it, from zero,
and its line, from one. -/
structure Place where
  record : Nat
  line : Nat
  byte : Nat
  deriving DecidableEq, Repr

/-- The fields of a record, in bytes. -/
structure Record where
  place : Place
  fields : List (List UInt8)
  deriving DecidableEq, Repr

/-- What the bytes so far have led to. -/
inductive Mode
  /-- No byte of a record yet. -/
  | between
  /-- The same, just after a return. -/
  | afterReturn
  /-- At the start of a field that has to follow a comma. -/
  | fieldStart
  | inField
  | inQuotes
  /-- After a quote that ends the quotes unless another one follows. -/
  | afterQuote
  deriving DecidableEq, Repr

/-- The state of reading records; the field at hand is in reverse. -/
structure Scanner where
  mode : Mode
  place : Place
  line : Nat
  byte : Nat
  field : List UInt8
  fields : Array (List UInt8)
  records : Array Record

namespace Scanner

/-- The start of a table, after a number of bytes that do not belong to it. -/
def start (skipped : Nat) : Scanner :=
  ⟨.between, ⟨0, 1, 0⟩, 1, skipped, [], #[], #[]⟩

def count (scanner : Scanner) (byte : UInt8) : Scanner :=
  { scanner with
    byte := scanner.byte + 1
    line := scanner.line + if byte = '\n'.toUInt8 then 1 else 0 }

def keep (scanner : Scanner) (mode : Mode) (byte : UInt8) : Scanner :=
  { scanner with mode, field := byte :: scanner.field }

/-- Ends the field; another one follows. -/
def endField (scanner : Scanner) : Scanner :=
  { scanner with
    mode := .fieldStart
    field := []
    fields := scanner.fields.push scanner.field.reverse }

def endRecord (scanner : Scanner) (mode : Mode) : Scanner :=
  { scanner with
    mode
    place := ⟨scanner.place.record + 1, scanner.line, scanner.byte⟩
    field := []
    fields := #[]
    records := scanner.records.push
      ⟨scanner.place, (scanner.fields.push scanner.field.reverse).toList⟩ }

def endsLine (byte : UInt8) : Bool :=
  byte = '\n'.toUInt8 || byte = '\r'.toUInt8

def plain (scanner : Scanner) (byte : UInt8) : Scanner :=
  if byte = ','.toUInt8 then
    scanner.endField
  else if endsLine byte then
    scanner.endRecord (if byte = '\r'.toUInt8 then .afterReturn else .between)
  else
    scanner.keep .inField byte

def first (scanner : Scanner) (byte : UInt8) : Scanner :=
  if byte = '"'.toUInt8 then
    { scanner with mode := .inQuotes }
  else
    scanner.plain byte

def step (scanner : Scanner) (byte : UInt8) : Scanner :=
  let counted := scanner.count byte
  match scanner.mode with
  | .between | .afterReturn =>
      if endsLine byte then { counted with mode := .between }
      else counted.first byte
  | .fieldStart => counted.first byte
  | .inField => counted.plain byte
  | .inQuotes =>
      if byte = '"'.toUInt8 then { counted with mode := .afterQuote }
      else counted.keep .inQuotes byte
  | .afterQuote =>
      if byte = '"'.toUInt8 then counted.keep .inQuotes byte
      else counted.plain byte

/-- The records, a last one without an end of line included. -/
def finish (scanner : Scanner) : List Record :=
  match scanner.mode with
  | .between | .afterReturn => scanner.records.toList
  | _ => (scanner.endRecord .between).records.toList

end Scanner

/-- The mark that may stand in front of a text. -/
def orderMark : List UInt8 :=
  [0xEF, 0xBB, 0xBF]

def records (bytes : List UInt8) : List Record :=
  let skipped := if orderMark.isPrefixOf bytes then orderMark.length else 0
  ((bytes.drop skipped).foldl Scanner.step (.start skipped)).finish

end PackedTopology.Table
