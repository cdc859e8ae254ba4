import PackedTopology.Table.Cell
import PackedTopology.Table.Record

/-!
# What is wrong with a table

A table is refused at its first record that is no text, that has more or fewer
fields than the record before, or that does not have the cells its columns
need.  The wording names the place of the record.
-/

namespace PackedTopology.Table

/-- What is wrong with the cells of a record. -/
inductive RowError
  /-- A cell, given by its number from zero. -/
  | cell (number : Nat) (error : CellError)
  /-- A record without any cell for its only column. -/
  | noCell
  /-- A record with cells for the first columns only. -/
  | tooShort (cells : Nat) (kind : String) (columns : Nat)
  /-- A column that the names leave out. -/
  | missing (column : String)
  /-- A column that the names have twice. -/
  | repeated (column : String)
  deriving DecidableEq, Repr

def RowError.message : RowError → String
  | .cell number error => s!"field {number}: {error.message}"
  | .noCell => "expected field, but got end of row"
  | .tooShort cells kind columns =>
      s!"invalid length {cells}, expected struct {kind} with {columns} elements"
  | .missing column => s!"missing field \x60{column}\x60"
  | .repeated column => s!"duplicate field \x60{column}\x60"

/-- What is wrong with a table. -/
inductive Error
  | unequal (place : Place) (fields before : Nat)
  | notText (place : Place) (field validBytes : Nat)
  | row (place : Place) (error : RowError)
  deriving DecidableEq, Repr

def Error.message : Error → String
  | .unequal place fields before =>
      s!"CSV error: record {place.record} (line: {place.line}, " ++
        s!"byte: {place.byte}): found record with {fields} fields, " ++
        s!"but the previous record has {before} fields"
  | .notText place field validBytes =>
      s!"CSV parse error: record {place.record} (line {place.line}, " ++
        s!"field: {field}, byte: {place.byte}): invalid utf-8: " ++
        s!"invalid UTF-8 in field {field} near byte index {validBytes}"
  | .row place error =>
      s!"CSV deserialize error: record {place.record} " ++
        s!"(line: {place.line}, byte: {place.byte}): {error.message}"

end PackedTopology.Table
