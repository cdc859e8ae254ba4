import PackedTopology.Index.Entry
import PackedTopology.Table.Error

/-!
# Rows of the tables

An id stands in the first cell of its record.  A mapping entry and a
constraint have a column for each of their parts: without names the columns
come in order, and cells beyond them are ignored; with names each cell belongs
to the column that its name says, and cells of other names are ignored.
-/

namespace PackedTopology.Table

/-- The cells of a record, without the blanks around them. -/
abbrev Cells : Type :=
  List (List Char)

def integerAt (range : IntegerRange) (number : Nat) (cell : List Char) :
    Except RowError Int :=
  (integerCell range cell).mapError (.cell number)

def scalarAt (number : Nat) (cell : List Char) : Except RowError Scalar :=
  (scalarCell cell).mapError (.cell number)

/-- The row of an id: its first cell. -/
def readId (cells : Cells) : Except RowError UInt32 :=
  match cells with
  | [] => .error .noCell
  | cell :: _ => do
      let value ← integerAt .word 0 cell
      return UInt32.ofNat value.toNat

/-- The parts of a row that are found so far. -/
structure Parts where
  vertex : Option Int32
  value : Option Scalar
  kind : Option Int32

/-- A column of a row. -/
inductive Column
  | vertex
  | value
  | kind
  deriving DecidableEq, Repr

namespace Column

def name : Column → String
  | .vertex => "vertex"
  | .value => "value"
  | .kind => "kind"

def isFound (column : Column) (parts : Parts) : Bool :=
  match column with
  | .vertex => parts.vertex.isSome
  | .value => parts.value.isSome
  | .kind => parts.kind.isSome

def take (column : Column) (number : Nat) (cell : List Char) (parts : Parts) :
    Except RowError Parts :=
  match column with
  | .vertex => do
      let vertex ← integerAt .integer number cell
      return { parts with vertex := some (Int32.ofInt vertex) }
  | .value => do
      return { parts with value := some (← scalarAt number cell) }
  | .kind => do
      let kind ← integerAt .integer number cell
      return { parts with kind := some (Int32.ofInt kind) }

end Column

namespace Parts

def empty : Parts :=
  ⟨none, none, none⟩

/-- Reads the cells of columns in order, the first of them being cell
`number`; `kind` names the row in messages. -/
def inOrder (kind : String) (columns : Nat) :
    List Column → (number : Nat) → Cells → Parts → Except RowError Parts
  | [], _, _, parts => return parts
  | _ :: _, number, [], _ => .error (.tooShort number kind columns)
  | column :: rest, number, cell :: cells, parts => do
      let parts ← column.take number cell parts
      inOrder kind columns rest (number + 1) cells parts

/-- Reads the cells whose names are those of columns, the first of them being
cell `number`. -/
def named (columns : List Column) :
    (number : Nat) → Cells → Cells → Parts → Except RowError Parts
  | number, name :: names, cell :: cells, parts => do
      match columns.find? fun column => column.name.toList = name with
      | none => named columns (number + 1) names cells parts
      | some column =>
          if column.isFound parts then
            .error (.repeated column.name)
          else
            let parts ← column.take number cell parts
            named columns (number + 1) names cells parts
  | _, _, _, parts => return parts

/-- Reads the columns of a row, by name if names are known. -/
def read (kind : String) (columns : List Column) (names : Option Cells)
    (cells : Cells) : Except RowError Parts :=
  match names with
  | none => inOrder kind columns.length columns 0 cells empty
  | some names => named columns 0 names cells empty

def need {α : Type} (column : Column) (part : Option α) : Except RowError α :=
  match part with
  | some part => .ok part
  | none => .error (.missing column.name)

end Parts

def readMappingEntry (names : Option Cells) (cells : Cells) :
    Except RowError MappingEntry := do
  let parts ← Parts.read "MappingRecord" [.vertex, .value] names cells
  return ⟨← Parts.need .vertex parts.vertex, ← Parts.need .value parts.value⟩

def readConstraint (names : Option Cells) (cells : Cells) :
    Except RowError Constraint := do
  let parts ← Parts.read "ConstraintRecord" [.vertex, .value, .kind] names cells
  return ⟨← Parts.need .vertex parts.vertex, ← Parts.need .value parts.value,
    ← Parts.need .kind parts.kind⟩

end PackedTopology.Table
