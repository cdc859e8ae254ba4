import PackedTopology.Table.Row
import PackedTopology.Text.Blank
import PackedTopology.Text.Utf8

/-!
# Reading a table

All records of a table have as many fields as the first one.  The first record
has the names of the columns if the settings say so; names that are no text
count as unknown.  The rows are read in order, and the first thing that is
wrong with one of them refuses the table.  The usual blanks around a field are
dropped before it is taken as text, and all others afterwards.
-/

namespace PackedTopology.Table

/-- The text of the fields of a record, or the number of the first one that is
no text and its bytes that are. -/
def textFrom (number : Nat) :
    List (List UInt8) → Except (Nat × Nat) Cells
  | [] => .ok []
  | field :: fields =>
      match Text.decode field with
      | .error valid => .error (number, valid)
      | .ok text => do
          let texts ← textFrom (number + 1) fields
          return Text.trim Text.isBlank text :: texts

def cellsOf (record : Record) : Except Error Cells :=
  let fields := record.fields.map (Text.trim Text.isBlankByte)
  (textFrom 0 fields).mapError fun (field, valid) =>
    .notText record.place field valid

def checkLength (fields : Nat) (record : Record) : Except Error Unit :=
  if record.fields.length = fields then
    .ok ()
  else
    .error (.unequal record.place record.fields.length fields)

def rowOf {α : Type} (read : Cells → Except RowError α) (fields : Nat)
    (record : Record) : Except Error α := do
  checkLength fields record
  let cells ← cellsOf record
  (read cells).mapError (.row record.place)

/-- The rows of a table, with or without a record of names. -/
def rowsOf {α : Type} (read : Option Cells → Cells → Except RowError α)
    (named : Bool) : List Record → Except Error (List α)
  | [] => .ok []
  | first :: rest =>
      let fields := first.fields.length
      if named then
        let names := (textFrom 0 first.fields).toOption
        rest.mapM (rowOf (read names) fields)
      else
        (first :: rest).mapM (rowOf (read none) fields)

def read {α : Type} (read : Option Cells → Cells → Except RowError α)
    (named : Bool) (bytes : List UInt8) : Except Error (List α) :=
  rowsOf read named (records bytes)

end PackedTopology.Table
