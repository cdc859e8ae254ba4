import PackedTopology.LittleEndian
import PackedTopology.Stream.Action

/-!
# Writers

A writer puts fields onto a target and counts the bytes of the fields that
went through whole.  A target with bounded room takes the part of a write
that fits and refuses the rest; that part is in the target but not in the
count.  A buffer in front of the room hides for a while that it is used up, so
the writer can have taken more than the medium keeps.
-/

namespace PackedTopology

/-- What a writer writes to. -/
inductive Medium
  /-- Takes every byte. -/
  | unbounded
  /-- Takes this many bytes altogether. -/
  | bounded (capacity : Nat)
  /-- Takes this many bytes altogether, behind a buffer that holds some more and
  is emptied only when it is full or when the writer is flushed. -/
  | buffered (capacity buffer : Nat)
  deriving DecidableEq, Repr

namespace Medium

def bufferSize : Nat :=
  8192

/-- How many bytes a medium can keep. -/
def limit : Medium → Option Nat
  | .unbounded => none
  | .bounded capacity => some capacity
  | .buffered capacity _ => some capacity

/-- The bytes that a medium keeps of those it was given. -/
def kept (medium : Medium) (bytes : List UInt8) : List UInt8 :=
  match medium.limit with
  | none => bytes
  | some limit => bytes.take limit

@[simp] theorem kept_unbounded (bytes : List UInt8) :
    unbounded.kept bytes = bytes :=
  rfl

/-- How many bytes a medium takes before it refuses. -/
def room : Medium → Option Nat
  | .unbounded => none
  | .bounded capacity => some capacity
  | .buffered capacity buffer => some (capacity + buffer)

/-- The bytes of a write that a medium takes after `held` others. -/
def fitting (medium : Medium) (held : Nat) (bytes : List UInt8) : List UInt8 :=
  match medium.room with
  | none => bytes
  | some room => bytes.take (room - held)

def refusal : Medium → DeviceError
  | .buffered _ _ => .noSpace
  | _ => .partialWrite

end Medium

/-- A target together with the count of the bytes written whole. -/
structure Writer where
  medium : Medium
  taken : Array UInt8
  counted : Nat
  deriving DecidableEq, Repr

namespace Writer

def empty (medium : Medium) : Writer :=
  ⟨medium, #[], 0⟩

def content (writer : Writer) : List UInt8 :=
  writer.taken.toList

def take (writer : Writer) (bytes : List UInt8) : Writer :=
  { writer with taken := writer.taken ++ bytes }

@[simp] theorem content_take (writer : Writer) (bytes : List UInt8) :
    (writer.take bytes).content = writer.content ++ bytes := by
  simp [take, content]

/-- Puts bytes onto the target; they count only if all of them fit. -/
def putBytes (bytes : List UInt8) : Action Writer Unit :=
  .of fun writer =>
    let medium := writer.medium
    let counted := writer.counted + bytes.length
    let fitting := medium.fitting writer.taken.size bytes
    let after := writer.take fitting
    if fitting.length = bytes.length then
      (.ok (), { after with counted })
    else
      (.error (.device medium.refusal), after)

def put {α : Type} [Field α] (value : α) : Action Writer Unit :=
  putBytes (Field.bytes value)

def measured (action : Action Writer Unit) : Action Writer Nat := do
  let before := (← get).counted
  action
  return (← get).counted - before

/-- Empties the buffer in front of the medium, which refuses what it has no room
for. -/
def flush : Action Writer Unit :=
  .of fun writer =>
    match writer.medium with
    | .buffered capacity _ =>
        if capacity < writer.taken.size then
          (.error (.device writer.medium.refusal), writer)
        else
          (.ok (), writer)
    | _ => (.ok (), writer)

end Writer

end PackedTopology
