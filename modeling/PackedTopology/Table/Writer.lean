import PackedTopology.Decimal.Layout
import PackedTopology.Index.Entry
import PackedTopology.Text.Utf8

/-!
# Writing a table

Each row is a line with its cells between commas.  Integers are decimal, and
scalars have the fewest digits that read back.  A line of names comes before
the first row if the settings say so; a table of ids has it even without rows.
No cell that is written needs quotes.
-/

namespace PackedTopology.Table

/-- Scalars in a table keep a fraction and do not sign large exponents. -/
def scalarLayout : NumberLayout :=
  ⟨.even, some (-5, 16), true, false⟩

def line (cells : List String) : String :=
  String.intercalate "," cells ++ "\n"

def idLine (id : UInt32) : String :=
  line [toString id.toNat]

def mappingLine (entry : MappingEntry) : String :=
  line [toString entry.vertex.toInt, scalarLayout.text entry.value]

def constraintLine (constraint : Constraint) : String :=
  line [toString constraint.vertex.toInt, scalarLayout.text constraint.value,
    toString constraint.kind.toInt]

/-- Lines with a line of names in front, if there is a line. -/
def withNames (named : Bool) (names : List String) (lines : List String) :
    List String :=
  if named && !lines.isEmpty then line names :: lines else lines

def idLines (named : Bool) (ids : List UInt32) : List String :=
  (if named then [line ["segment"]] else []) ++ ids.map idLine

def mappingLines (named : Bool) (entries : List MappingEntry) : List String :=
  withNames named ["vertex", "value"] (entries.map mappingLine)

def constraintLines (named : Bool) (constraints : List Constraint) :
    List String :=
  withNames named ["vertex", "value", "kind"] (constraints.map constraintLine)

end PackedTopology.Table
