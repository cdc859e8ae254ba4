import Std.Data.TreeSet
import PackedTopology.Index.SortedMappings
import PackedTopology.Segmentation.Record

/-!
# Persistence index records

A record is a count and that many mapping entries, then a count and that many
constraints.  Entries are written in the order in which they are given.  A
record is refused, before anything of it is written, if a list is too long
for its count or the mapping names a vertex twice.  Reading it back sorts the
mapping both ways and works out the range of the constraint values.
-/

namespace PackedTopology

/-- A mapping and constraints to be written. -/
structure PersistenceIndex where
  mapping : List MappingEntry
  constraints : List Constraint
  deriving DecidableEq, Repr

/-- What a record says, and its bytes. -/
structure DecodedIndex where
  mappings : SortedMappings
  constraints : Constraints
  size : Nat

namespace PersistenceIndex

def mappingEntrySize : Nat :=
  12

def constraintSize : Nat :=
  16

def recordSize (mapping constraints : Nat) : Nat :=
  8 + mapping * mappingEntrySize + constraints * constraintSize

def encodedSize (index : PersistenceIndex) : Nat :=
  recordSize index.mapping.length index.constraints.length

/-- The first element of a list that is among the seen ones or among those
before it. -/
def firstRepeatAfter (seen : Std.TreeSet Int32) : List Int32 → Option Int32
  | [] => none
  | vertex :: vertices =>
      if seen.contains vertex then
        some vertex
      else
        firstRepeatAfter (seen.insert vertex) vertices

/-- The first element of a list that repeats an earlier one. -/
def firstRepeat (vertices : List Int32) : Option Int32 :=
  firstRepeatAfter ∅ vertices

def checkVertices (mapping : List MappingEntry) : Except Fault Unit :=
  match firstRepeat (mapping.map MappingEntry.vertex) with
  | none => .ok ()
  | some vertex => .error (.repeatedVertex vertex)

/-- Both counts as fields, the one of the mapping first. -/
def countFields (mapping constraints : Nat) :
    Except Fault (UInt32 × UInt32) := do
  let mappingCount ← Segmentation.countField .mappingCount mapping
  let constraintCount ← Segmentation.countField .constraintCount constraints
  return (mappingCount, constraintCount)

def putEntry (entry : MappingEntry) : Action Writer Unit := do
  Writer.put entry.vertex
  Writer.put entry.value

def putConstraint (constraint : Constraint) : Action Writer Unit := do
  Writer.put constraint.vertex
  Writer.put constraint.value
  Writer.put constraint.kind

def write (index : PersistenceIndex) : Action Writer Nat := do
  let (mappingCount, constraintCount) ← Action.check
    (countFields index.mapping.length index.constraints.length)
  Action.check (checkVertices index.mapping)
  Writer.measured do
    Writer.put mappingCount
    index.mapping.forM putEntry
    Writer.put constraintCount
    index.constraints.forM putConstraint

/-- Writes the record of equal entries and equal constraints.  The counts are
looked at before the lists are made. -/
def writeReplicate (mapping : Nat) (entry : MappingEntry) (constraints : Nat)
    (constraint : Constraint) : Action Writer Nat := do
  let _ ← Action.check (countFields mapping constraints)
  write ⟨List.replicate mapping entry, List.replicate constraints constraint⟩

theorem writeReplicate_eq (mapping : Nat) (entry : MappingEntry)
    (constraints : Nat) (constraint : Constraint) (writer : Writer) :
    (writeReplicate mapping entry constraints constraint).step writer =
      (write ⟨List.replicate mapping entry,
        List.replicate constraints constraint⟩).step writer := by
  unfold writeReplicate
  rw [Action.step_bind, Action.step_check]
  cases hcounts : countFields mapping constraints with
  | error fault =>
      rw [write, Action.step_bind, Action.step_check, List.length_replicate,
        List.length_replicate, hcounts]
  | ok fields => rfl

def takeEntry : Action Reader MappingEntry := do
  let vertex ← Reader.take Int32 .mappingEntries
  let value ← Reader.take Scalar .mappingEntries
  return ⟨vertex, value⟩

def takeConstraint : Action Reader Constraint := do
  let vertex ← Reader.take Int32 .constraintEntries
  let value ← Reader.take Scalar .constraintEntries
  let kind ← Reader.take Int32 .constraintEntries
  return ⟨vertex, value, kind⟩

/-- Reads the two lists of a record, in the order in which they are stored. -/
def takeLists : Action Reader (List MappingEntry × List Constraint) := do
  let mappingCount ← Reader.take UInt32 .mappingCount
  let mapping ← takeEntry.times mappingCount.toNat
  let constraintCount ← Reader.take UInt32 .constraintCount
  let constraints ← takeConstraint.times constraintCount.toNat
  return (mapping, constraints)

def read : Action Reader DecodedIndex := do
  let ((mapping, constraints), size) ← Reader.measured takeLists
  return ⟨.ofList mapping, .ofList constraints, size⟩

end PersistenceIndex

end PackedTopology
