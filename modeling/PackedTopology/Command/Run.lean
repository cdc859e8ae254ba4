import PackedTopology.Command.Arguments
import PackedTopology.Command.Complaint
import PackedTopology.Command.Report
import PackedTopology.Directory
import PackedTopology.Log.Filter
import PackedTopology.Settings.Reader
import PackedTopology.Table.Reader
import PackedTopology.Table.Writer

/-!
# Running a command

A command works on a directory.  It reads all of its input before it opens an
output, prints a report or nothing, and logs what it did; the first complaint
ends it.  An output is emptied when it is opened and keeps what was written
before a complaint.
-/

namespace PackedTopology.Command

/-- What a command has done so far. -/
structure Progress where
  directory : Directory
  printed : String
  messages : List LogMessage
  deriving DecidableEq, Repr

/-- A part of a command; a complaint ends it, and what was done stays done. -/
abbrev Task (α : Type) : Type :=
  ExceptT Complaint (StateM Progress) α

namespace Task

variable {α : Type}

/-- Ends the command with a complaint unless there is a value. -/
def ensure {ε : Type} (complaint : ε → Complaint) (result : Except ε α) :
    Task α :=
  match result with
  | .ok value => return value
  | .error error => throw (complaint error)

def log (level : LogLevel) (source text : String)
    (numbers : List (String × Nat)) : Task Unit :=
  modify fun progress =>
    { progress with
      messages := progress.messages ++ [⟨level, source, text, numbers⟩] }

def print (text : String) : Task Unit :=
  modify fun progress => { progress with printed := progress.printed ++ text }

def openInput (path : String) : Task Source := do
  let directory := (← get).directory
  ensure (Complaint.ofDevice "opening input file" path)
    (directory.openInput path)

def createOutput (path : String) : Task Directory.Output := do
  let progress ← get
  let (output, directory) ←
    ensure (Complaint.ofDevice "creating output file" path)
      (progress.directory.createOutput path)
  set { progress with directory }
  return output

def store (output : Directory.Output) (writer : Writer) : Task Unit :=
  modify fun progress =>
    { progress with
      directory := progress.directory.store output writer.content }

end Task

/-! ## Logging -/

def commandSource : String :=
  "topocodec"

def segmentationSource : String :=
  "topocodec::segmentation"

def indexSource : String :=
  "topocodec::persistence"

def logPacked (text : String) (vertices segments packedBytes : Nat) :
    Task Unit := do
  let width := (fieldWidth segments).toOption.getD 0
  Task.log .debug segmentationSource text
    [("vertices", vertices), ("segments", segments), ("width", width),
      ("words", packedBytes / 4)]

def indexNumbers (mappings constraints bytes : Nat) : List (String × Nat) :=
  [("mappings", mappings), ("constraints", constraints), ("bytes", bytes)]

/-! ## Input and output -/

/-- The rows of a table.  A folder that is opened as a table with names counts
as empty, because the refusal is met while the names are read. -/
def readTable {α : Type}
    (read : Option Table.Cells → Table.Cells → Except Table.RowError α)
    (settings : Settings) (path : String) : Task (List α) := do
  let source ← Task.openInput path
  let complain (text : String) : Complaint :=
    .plain s!"parsing '{path}': {text}"
  match source.breakage with
  | some (_, error) =>
      if settings.csvHeaders then return [] else throw (complain error.text)
  | none =>
      Task.ensure (fun error : Table.Error => complain error.message)
        (Table.read read settings.csvHeaders source.rest)

def readFrom {α : Type} (operation path : String) (action : Action Reader α) :
    Task α := do
  let source ← Task.openInput path
  Task.ensure (Complaint.ofFault operation)
    (action.step (.ofSource source)).1

/-- Writes to a new output.  `written` tells of what was written, before the
output is flushed. -/
def writeTo (operation path : String) (action : Action Writer Nat)
    (written : Nat → Task Unit) : Task Nat := do
  let output ← Task.createOutput path
  let (result, writer) := action.step (.empty output.medium)
  Task.store output writer
  let bytes ← Task.ensure (Complaint.ofFault operation) result
  written bytes
  Task.ensure (Complaint.ofFault operation) (Writer.flush.step writer).1
  return bytes

/-- Writes lines to a new output.  A refusal in the middle is told as it is,
one at the end with the operation. -/
def writeLines (operation path : String) (lines : List String) : Task Unit := do
  let output ← Task.createOutput path
  let action : Action Writer Unit :=
    lines.forM fun line => Writer.putBytes (Text.encode line)
  let (result, writer) := action.step (.empty output.medium)
  Task.store output writer
  Task.ensure (fun fault => .plain fault.advice) result
  let complain : Fault → Complaint
    | .device error => .ofDevice operation path error
    | fault => .ofFault operation fault
  Task.ensure complain (Writer.flush.step writer).1

/-! ## The commands -/

def pack (settings : Settings) (input output : String) (segments : Nat) :
    Task Unit := do
  let ids ← readTable (fun _ cells => Table.readId cells) settings input
  let bytes ← writeTo "packing segmentation" output
    (Segmentation.write ids segments) fun bytes =>
      logPacked "encoded segmentation" ids.length segments
        (bytes - Segmentation.Header.size)
  Task.log .info commandSource "packed segmentation"
    [("vertices", ids.length), ("segments", segments), ("bytes", bytes)]

def unpack (settings : Settings) (input output : String) : Task Unit := do
  let record ← readFrom "unpacking segmentation" input
    (Segmentation.read (some settings.maxVertices))
  let vertices := record.header.vertices.toNat
  let segments := record.header.segments.toNat
  logPacked "decoded segmentation" vertices segments
    (record.size - Segmentation.Header.size)
  writeLines "writing output file" output
    (Table.idLines settings.csvHeaders record.ids)
  Task.log .info commandSource "unpacked segmentation"
    [("vertices", vertices), ("segments", segments), ("bytes", record.size)]

def inspect (input : String) (json : Bool) : Task Unit := do
  let directory := (← get).directory
  let fileBytes ← Task.ensure (Complaint.ofDevice "reading input file" input)
    (directory.fileSize input)
  let header ← readFrom "reading header" input Segmentation.Header.read
  let report ← Task.ensure (Complaint.ofFault "reading header")
    (SegmentationReport.ofHeader header fileBytes)
  Task.print (if json then report.object else report.text)

def packIndex (settings : Settings) (mapping constraints output : String) :
    Task Unit := do
  let mapping ← readTable Table.readMappingEntry settings mapping
  let constraints ← readTable Table.readConstraint settings constraints
  let numbers := indexNumbers mapping.length constraints.length
  let bytes ← writeTo "packing persistence index" output
    (PersistenceIndex.write ⟨mapping, constraints⟩) fun bytes =>
      Task.log .debug indexSource "encoded persistence index" (numbers bytes)
  Task.log .info commandSource "packed persistence index" (numbers bytes)

def readIndex (operation input : String) : Task DecodedIndex := do
  let index ← readFrom operation input PersistenceIndex.read
  Task.log .debug indexSource "decoded persistence index"
    (indexNumbers index.mappings.size index.constraints.size index.size)
  return index

def unpackIndex (settings : Settings) (input mapping constraints : String) :
    Task Unit := do
  let index ← readIndex "unpacking persistence index" input
  writeLines "writing mapping file" mapping
    (Table.mappingLines settings.csvHeaders index.mappings.toList)
  writeLines "writing constraints file" constraints
    (Table.constraintLines settings.csvHeaders index.constraints.toList)

def inspectIndex (input : String) (json : Bool) : Task Unit := do
  let index ← readIndex "reading persistence index" input
  let report := IndexReport.ofIndex index
  Task.print (if json then report.object else report.text)

def perform (settings : Settings) : Request → Task Unit
  | .pack input output segments => pack settings input output segments
  | .unpack input output => unpack settings input output
  | .inspect input json => inspect input json
  | .packIndex mapping constraints output =>
      packIndex settings mapping constraints output
  | .unpackIndex input mapping constraints =>
      unpackIndex settings input mapping constraints
  | .inspectIndex input json => inspectIndex input json

/-! ## The program -/

/-- What the program leaves behind. -/
structure Outcome where
  exit : Nat
  printed : String
  /-- The complaints about directives that are ignored. -/
  ignored : List String
  messages : List LogMessage
  jsonLog : Bool
  /-- The complaint that ended the program. -/
  failure : Option String
  directory : Directory
  deriving DecidableEq, Repr

namespace Outcome

def failureExit : Nat :=
  1

def usageExit : Nat :=
  2

def nothing (exit : Nat) (failure : Option String) (directory : Directory) :
    Outcome :=
  ⟨exit, "", [], [], false, failure, directory⟩

def logText (outcome : Outcome) : String :=
  String.join <| outcome.messages.map fun message =>
    (if outcome.jsonLog then message.object else message.line) ++ "\n"

def complaints (outcome : Outcome) : String :=
  String.join ((outcome.ignored ++ outcome.failure.toList).map (· ++ "\n"))

end Outcome

def readSettings (directory : Directory) (path : String) :
    Except Complaint Settings :=
  let settings : Except Fault Settings := do
    let bytes ← (directory.readFile path).mapError .device
    match Text.decode bytes with
    | .error _ => throw (.device .notText)
    | .ok text => Settings.ofText (String.ofList text)
  settings.mapError (Complaint.ofFault "loading config")

def verboseDirectives : String :=
  "warn,topocodec=debug"

/-- The filter that the environment sets, or else the one of the invocation,
and complaints about the latter. -/
def filterOf (logVariable : Option String) (directives : String) :
    LogFilter × List String :=
  match logVariable.bind LogFilter.ofText? with
  | some filter => (filter, [])
  | none => LogFilter.ofTextLossy directives

def runWith (directory : Directory) (logVariable : Option String)
    (invocation : Invocation) (settings : Settings) : Outcome :=
  let directives :=
    if invocation.verbose then verboseDirectives else settings.logDirectives
  let (filter, ignored) := filterOf logVariable directives
  let (result, progress) :=
    (perform settings invocation.request).run ⟨directory, "", []⟩
  let failure := match result with
    | .ok () => none
    | .error complaint => some complaint.text
  { exit := if failure.isSome then Outcome.failureExit else 0
    printed := progress.printed
    ignored := ignored
    messages := progress.messages.filter filter.admits
    jsonLog := invocation.jsonLog
    failure := failure
    directory := progress.directory }

def run (directory : Directory) (logVariable : Option String)
    (arguments : List String) : Outcome :=
  match Invocation.ofArguments arguments with
  | .error .help => .nothing 0 none directory
  | .error .usage => .nothing Outcome.usageExit none directory
  | .ok invocation =>
      let settings : Except Complaint Settings :=
        match invocation.settingsPath with
        | none => .ok Settings.standard
        | some path => readSettings directory path
      match settings with
      | .error complaint =>
          .nothing Outcome.failureExit (some complaint.text) directory
      | .ok settings => runWith directory logVariable invocation settings

end PackedTopology.Command
