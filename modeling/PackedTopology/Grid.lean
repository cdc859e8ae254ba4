import PackedTopology.Fault

/-!
# Grid shapes

Three axis sizes describe a plane if exactly one of them is one, and a volume
if none is.  The unit axis of a plane is dropped and the other two stay in
order.  A line, a point or an empty axis has no shape.
-/

namespace PackedTopology

/-- The axes of a dense grid. -/
inductive GridShape
  | plane (n1 n2 : Nat)
  | volume (nx ny nz : Nat)
  deriving DecidableEq, Repr

namespace GridShape

def axes : GridShape → List Nat
  | .plane n1 n2 => [n1, n2]
  | .volume nx ny nz => [nx, ny, nz]

/-- The first axis of a plane is the first one that is not the unit axis.  The
second one is the middle one, unless one of the first two is the unit axis. -/
def ofAxes (nx ny nz : Nat) : Except Fault GridShape :=
  if nx = 0 ∨ ny = 0 ∨ nz = 0 then
    .error (.unsupportedShape nx ny nz)
  else
    match [nx, ny, nz].count 1 with
    | 0 => .ok (.volume nx ny nz)
    | 1 =>
        .ok (.plane (if nx ≠ 1 then nx else ny)
          (if nx ≠ 1 ∧ ny ≠ 1 then ny else nz))
    | _ => .error (.unsupportedShape nx ny nz)

def size : GridShape → Nat
  | .plane n1 n2 => n1 * n2
  | .volume nx ny nz => nx * ny * nz

def checkSize (shape : GridShape) (values : Nat) : Except Fault Unit :=
  if values = shape.size then
    .ok ()
  else
    .error (.backend .grid s!"{values} values for a grid of {shape.size}")

end GridShape

end PackedTopology
