import PackedTopology.Fault

/-!
# Byte sources

A source hands out its bytes in calls, each of which gives at least one byte
and at most as many as were asked for.  How many it gives is its own choice,
which may be another one at every call.  It may also break, once it has handed
out a given number of bytes, and stays broken then; a call that is only
interrupted is made again and does not show.  Filling a field repeats the call
until the field is complete, the bytes end, or the source breaks.
-/

namespace PackedTopology

/-- The most bytes that calls give, at least one byte each. -/
structure Pace where
  /-- For the calls to come, one after the other. -/
  next : List Nat
  /-- For all calls behind these; without it they give what they are asked. -/
  later : Option Nat
  deriving DecidableEq, Repr

namespace Pace

/-- The same limit for every call, or none. -/
def steady (chunk : Option Nat) : Pace :=
  ⟨[], chunk⟩

instance : Coe (Option Nat) Pace :=
  ⟨steady⟩

/-- How many bytes the next call gives if it is asked for `wanted`. -/
def portion (pace : Pace) (wanted : Nat) : Nat :=
  min wanted (max 1 ((pace.next.head?.or pace.later).getD wanted))

/-- The pace behind some calls. -/
def skip (pace : Pace) (calls : Nat) : Pace :=
  { pace with next := pace.next.drop calls }

end Pace

/-- Bytes to be handed out. -/
structure Source where
  /-- The bytes not handed out yet. -/
  rest : List UInt8
  pace : Pace
  /-- How many more bytes are handed out before the source breaks, and what
  it says then. -/
  breakage : Option (Nat × DeviceError)
  deriving DecidableEq, Repr

namespace Source

def ofList (bytes : List UInt8) : Source :=
  ⟨bytes, .steady none, none⟩

def broken (error : DeviceError) : Source :=
  ⟨[], .steady none, some (0, error)⟩

def unread (source : Source) : List UInt8 :=
  match source.breakage with
  | none => source.rest
  | some (credit, _) => source.rest.take credit

/-- How many bytes a call for `wanted` bytes asks of the list. -/
def share (source : Source) (wanted : Nat) : Nat :=
  let portion := source.pace.portion wanted
  match source.breakage with
  | none => portion
  | some (credit, _) => min portion credit

/-- The source behind some calls that gave `count` bytes together. -/
def advance (source : Source) (calls count : Nat) : Source :=
  { source with
    rest := source.rest.drop count
    pace := source.pace.skip calls
    breakage := source.breakage.map fun (credit, error) =>
      (credit - count, error) }

/-- One call: the bytes it gives, none at the end, or the refusal of a broken
source. -/
def call (source : Source) (wanted : Nat) : Except DeviceError (List UInt8) :=
  match source.breakage with
  | some (0, error) => .error error
  | _ => .ok (source.rest.take (source.share wanted))

/-- How an attempt to fill a field ended. -/
inductive Filled
  | complete (bytes : List UInt8)
  | ended
  | refused (error : DeviceError)
  deriving DecidableEq, Repr

/-- Calls until `wanted` bytes have come, after the bytes in `got`. -/
def fillAfter (got : List UInt8) (wanted : Nat) (source : Source) :
    Filled × Source :=
  if wanted = 0 then
    (.complete got, source)
  else
    match source.call wanted with
    | .error error => (.refused error, source)
    | .ok [] => (.ended, source)
    | .ok (byte :: bytes) =>
        fillAfter (got ++ byte :: bytes) (wanted - (byte :: bytes).length)
          (source.advance 1 (byte :: bytes).length)
termination_by wanted
decreasing_by
  simp only [List.length_cons]
  omega

def fill (wanted : Nat) (source : Source) : Filled × Source :=
  source.fillAfter [] wanted

end Source

end PackedTopology
