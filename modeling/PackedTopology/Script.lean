import PackedTopology.Index.Record

/-!
# Scripts of stream operations

A stream is often written and read by a sequence of operations, some of which
fail.  Here every operation is a value, so that a whole sequence can be run
and its results and states compared with those of another run.  A session runs
steps on a writer, a reader, a list of words, a cursor and a list of
constraints at once; a failed step keeps what it did so far, and the next one
goes on from there.
-/

namespace PackedTopology

open Segmentation

/-- An operation on a writer. -/
inductive WriteStep
  | word (value : UInt32)
  | integer (value : Int32)
  | scalar (value : Scalar)
  | flush
  | header (counts : Header)
  | segmentation (ids : List UInt32) (segments : Nat)
  | packed (ids : List UInt32) (segments : Nat)
  | index (content : PersistenceIndex)
  deriving Repr

namespace WriteStep

/-- Performs an operation.  Those that write a record report its bytes. -/
def perform : WriteStep → Action Writer (Option Nat)
  | .word value => do Writer.put value; return none
  | .integer value => do Writer.put value; return none
  | .scalar value => do Writer.put value; return none
  | .flush => do Writer.flush; return none
  | .header counts => some <$> counts.write
  | .segmentation ids segments => some <$> Segmentation.write ids segments
  | .packed ids segments => some <$> encode ids segments
  | .index content => some <$> content.write

end WriteStep

/-- What a read operation found. -/
inductive Reading
  | word (value : UInt32)
  | integer (value : Int32)
  | scalar (value : Scalar)
  | header (counts : Header)
  | segmentation (record : Record)
  | packed (ids : List UInt32) (size : Nat)
  | index (content : DecodedIndex)

/-- An operation on a reader. -/
inductive ReadStep
  | word (region : Region)
  | integer (region : Region)
  | scalar (region : Region)
  | header
  | segmentation (limit : Option Nat)
  | packed (vertices segments : Nat)
  | index
  deriving Repr

namespace ReadStep

def perform : ReadStep → Action Reader Reading
  | .word region => .word <$> Reader.take UInt32 region
  | .integer region => .integer <$> Reader.take Int32 region
  | .scalar region => .scalar <$> Reader.take Scalar region
  | .header => .header <$> Header.read
  | .segmentation limit => .segmentation <$> Segmentation.read limit
  | .packed vertices segments => do
      let (ids, size) ← decode vertices segments
      return .packed ids size
  | .index => .index <$> PersistenceIndex.read

end ReadStep

/-- The results of a sequence of actions, each with the state it left, and
the last state.  A failed action does not end the sequence. -/
def Action.runAll {σ α : Type} :
    List (Action σ α) → σ → List (Except Fault α × σ)
  | [], _ => []
  | action :: actions, state =>
      let outcome := action.step state
      outcome :: runAll actions outcome.2

/-- Five objects that steps can work on. -/
structure Session where
  writer : Writer
  reader : Reader
  sink : Array UInt32
  cursor : WordCursor
  constraints : Constraints

/-- A step of a session. -/
inductive SessionStep
  | write (step : WriteStep)
  | read (step : ReadStep)
  /-- Turns what was written into the bytes to be read. -/
  | reopen
  | sinkWord (value : UInt32)
  | sinkPacked (ids : List UInt32) (segments : Nat)
  | cursorWord (region : Region)
  | cursorPacked (vertices segments : Nat)
  | push (constraint : Constraint)
  | collect (constraints : List Constraint)

/-- What a step of a session answers. -/
inductive SessionReply
  | done
  | size (bytes : Nat)
  | found (reading : Reading)
  | constraints (constraints : Constraints)

namespace Session

def start (medium : Medium) (source : Source) (words : List UInt32) : Session :=
  ⟨.empty medium, .ofSource source, #[], .ofList words, .empty⟩

def onPart {σ α : Type} (part : Session → σ)
    (replace : Session → σ → Session) (reply : α → SessionReply)
    (action : Action σ α) : Action Session SessionReply :=
  .of fun session =>
    let (result, after) := action.step (part session)
    (result.map reply, replace session after)

def onWriter : Action Writer (Option Nat) → Action Session SessionReply :=
  onPart Session.writer (fun session writer => { session with writer })
    fun size => size.elim .done .size

def onReader : Action Reader Reading → Action Session SessionReply :=
  onPart Session.reader (fun session reader => { session with reader }) .found

def onSink : Action (Array UInt32) (Option Nat) → Action Session SessionReply :=
  onPart Session.sink (fun session sink => { session with sink })
    fun size => size.elim .done .size

def onCursor : Action WordCursor Reading → Action Session SessionReply :=
  onPart Session.cursor (fun session cursor => { session with cursor }) .found

def onConstraints (change : Constraints → Constraints) :
    Action Session SessionReply :=
  .of fun session =>
    let constraints := change session.constraints
    (.ok (.constraints constraints), { session with constraints })

def perform : SessionStep → Action Session SessionReply
  | .write step => onWriter step.perform
  | .read step => onReader step.perform
  | .reopen => .of fun session =>
      (.ok .done,
        { session with
          reader := .ofList session.writer.content
          writer := .empty session.writer.medium })
  | .sinkWord value => onSink do
      WordSink.putWord value
      return none
  | .sinkPacked ids segments => onSink (some <$> encode ids segments)
  | .cursorWord region => onCursor (.word <$> WordSource.nextWord region)
  | .cursorPacked vertices segments => onCursor do
      let (ids, size) ← decode vertices segments
      return .packed ids size
  | .push constraint => onConstraints fun constraints =>
      constraints.push constraint
  | .collect constraints => onConstraints fun _ => .ofList constraints

/-- The results of the steps, each with the session it left. -/
def run (session : Session) (steps : List SessionStep) :
    List (Except Fault SessionReply × Session) :=
  Action.runAll (steps.map perform) session

end Session

end PackedTopology
