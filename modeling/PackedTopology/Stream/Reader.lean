import PackedTopology.LittleEndian
import PackedTopology.Stream.Action
import PackedTopology.Stream.Source

/-!
# Readers

A reader takes fields from a source and counts the bytes of the fields it got
whole.  A field that the source cannot fill is lost: its bytes are consumed
but not counted, and the fault names the offset at which the field started.
A device that says that its data ended early is taken at its word.
-/

namespace PackedTopology

/-- A source together with the count of the bytes of whole fields. -/
structure Reader where
  source : Source
  counted : Nat
  deriving DecidableEq, Repr

namespace Reader

def ofSource (source : Source) : Reader :=
  ⟨source, 0⟩

def ofList (bytes : List UInt8) : Reader :=
  ofSource (.ofList bytes)

def unread (reader : Reader) : List UInt8 :=
  reader.source.unread

/-- Takes the next `size` bytes, on behalf of a region. -/
def takeBytes (region : Region) (size : Nat) : Action Reader (List UInt8) :=
  .of fun reader =>
    match reader.source.fill size with
    | (.complete bytes, source) => (.ok bytes, ⟨source, reader.counted + size⟩)
    | (.ended, source) =>
        (.error (.incomplete region reader.counted size),
          ⟨source, reader.counted⟩)
    | (.refused error, source) =>
        let fault : Fault :=
          if error.cause = .endedEarly then
            .incomplete region reader.counted size
          else
            .device error
        (.error fault, ⟨source, reader.counted⟩)

/-- Takes the next field, on behalf of a region. -/
def take (α : Type) [Field α] (region : Region) : Action Reader α := do
  let stored ← takeBytes region (Field.size α)
  return Field.ofBytes stored

/-- Runs an action and reports, beside its value, by how much the count
grew. -/
def measured {α : Type} (action : Action Reader α) :
    Action Reader (α × Nat) := do
  let before := (← get).counted
  let value ← action
  return (value, (← get).counted - before)

end Reader

end PackedTopology
