import PackedTopology.Scalar

/-!
# Entries of a persistence index

A mapping entry pins a scalar value to a vertex.  A constraint also says of
which kind the pinned point is; kinds are carried along untouched.  A list of
constraints keeps the range of its values up to date: the first value seeds
the range, and a later one moves an end only if it lies beyond it.
-/

namespace PackedTopology

/-- A value pinned to a vertex. -/
structure MappingEntry where
  vertex : Int32
  value : Scalar
  deriving DecidableEq, Repr, Inhabited

namespace MappingEntry

/-- The order by vertex; equal vertices go by value. -/
def vertexOrder (left right : MappingEntry) : Bool :=
  left.vertex < right.vertex ||
    (left.vertex = right.vertex && left.value.rank ≤ right.value.rank)

/-- The order by value; equal values go by vertex. -/
def valueOrder (left right : MappingEntry) : Bool :=
  left.value.rank < right.value.rank ||
    (left.value.rank = right.value.rank && left.vertex ≤ right.vertex)

end MappingEntry

/-- A point that has to survive compression, and its kind. -/
structure Constraint where
  vertex : Int32
  value : Scalar
  kind : Int32
  deriving DecidableEq, Repr, Inhabited

/-- The ends of a range of values. -/
structure ValueRange where
  min : Scalar
  max : Scalar
  deriving DecidableEq, Repr

namespace ValueRange

def single (value : Scalar) : ValueRange :=
  ⟨value, value⟩

def widen (range : ValueRange) (value : Scalar) : ValueRange :=
  ⟨if value.Below range.min then value else range.min,
    if range.max.Below value then value else range.max⟩

end ValueRange

/-- A list of constraints together with the range of their values. -/
structure Constraints where
  entries : Array Constraint
  range : Option ValueRange
  deriving DecidableEq, Repr

namespace Constraints

def empty : Constraints :=
  ⟨#[], none⟩

def push (constraints : Constraints) (constraint : Constraint) : Constraints :=
  ⟨constraints.entries.push constraint,
    some <| match constraints.range with
      | none => .single constraint.value
      | some range => range.widen constraint.value⟩

def ofList (constraints : List Constraint) : Constraints :=
  constraints.foldl push empty

def toList (constraints : Constraints) : List Constraint :=
  constraints.entries.toList

def size (constraints : Constraints) : Nat :=
  constraints.entries.size

def isEmpty (constraints : Constraints) : Bool :=
  constraints.entries.isEmpty

def min (constraints : Constraints) : Option Scalar :=
  constraints.range.map ValueRange.min

def max (constraints : Constraints) : Option Scalar :=
  constraints.range.map ValueRange.max

@[simp] theorem toList_empty : empty.toList = [] :=
  rfl

@[simp] theorem toList_push (constraints : Constraints)
    (constraint : Constraint) :
    (constraints.push constraint).toList =
      constraints.toList ++ [constraint] := by
  simp [push, toList]

end Constraints

end PackedTopology
