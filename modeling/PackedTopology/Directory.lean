import PackedTopology.Fault
import PackedTopology.Stream.Source
import PackedTopology.Stream.Writer
import PackedTopology.Text.Parts

/-!
# Directories

A directory holds files, folders and devices, each at the list of names that
leads to it from the root, and knows the folder that a command works in.  A
path is walked name by name, from the root if it starts with a slash and from
the working folder otherwise, and everything but its last name has to be a
folder.  There is a limit to the length of a name, and one to that of a path.

The files at some places have no more than a certain room.  Such a file keeps the
front of what is written to it.
-/

namespace PackedTopology

/-- A file that holds nothing. -/
inductive Device
  /-- Takes everything, and is empty when it is read. -/
  | null
  /-- Takes everything, and reads as zeros. -/
  | zero
  /-- Has no room for anything, and reads as zeros. -/
  | full
  deriving DecidableEq, Repr

/-- What stands at a place. -/
inductive Node
  | file (bytes : List UInt8)
  | folder
  | device (device : Device)
  deriving DecidableEq, Repr

/-- A list of names that leads from the root to a node. -/
abbrev Place : Type :=
  List String

/-- What stands at which place, and the folder that a command works in. -/
structure Directory where
  nodes : List (Place × Node)
  working : Place
  /-- What files at some places are written to; all others have room enough. -/
  media : List (Place × Medium)
  deriving DecidableEq, Repr

namespace Directory

/-- What stands at a place; the root has no names. -/
def node? (directory : Directory) (place : Place) : Option Node :=
  if place = [] then some .folder else directory.nodes.lookup place

/-- What a file at a place is written to. -/
def medium (directory : Directory) (place : Place) : Medium :=
  (directory.media.lookup place).getD .unbounded

/-- The directory with a node at a place, whatever was there before. -/
def insert (directory : Directory) (place : Place) (node : Node) : Directory :=
  { directory with
    nodes :=
      if directory.nodes.any fun entry => entry.1 = place then
        directory.nodes.map fun entry =>
          if entry.1 = place then (place, node) else entry
      else
        directory.nodes ++ [(place, node)] }

/-- The directory with folders on the way to a place, as far as nothing is
there yet. -/
def insertFolders (directory : Directory) (place : Place) : Directory :=
  (List.range (place.length + 1)).foldl
    (fun directory count =>
      let above := place.take count
      match directory.node? above with
      | some _ => directory
      | none => directory.insert above .folder)
    directory

def deviceFolder : Place :=
  ["dev"]

def devices : List (String × Device) :=
  [("null", .null), ("zero", .zero), ("full", .full)]

def empty (working : Place) : Directory :=
  let directory := (Directory.mk [] working []).insertFolders working
  devices.foldl
    (fun directory (name, device) =>
      directory.insert (deviceFolder ++ [name]) (.device device))
    (directory.insertFolders deviceFolder)

/-! ## Paths -/

def nameLimit : Nat :=
  255

def follow (place : Place) (name : String) : Place :=
  if name = "" ∨ name = "." then place
  else if name = ".." then place.dropLast
  else place ++ [name]

def ensureFolder (directory : Directory) (place : Place) :
    Except DeviceError Unit :=
  match directory.node? place with
  | some .folder => .ok ()
  | some _ => .error .notFolder
  | none => .error .notFound

def walk (directory : Directory) : Place → List String →
    Except DeviceError Place
  | place, [] => .ok place
  | place, name :: names => do
      directory.ensureFolder place
      if nameLimit < name.utf8ByteSize then throw .nameTooLong
      walk directory (follow place name) names

def pathLimit : Nat :=
  4095

/-- Where a path starts.  No text at all is no path. -/
def origin (directory : Directory) (path : String) :
    Except DeviceError Place :=
  if path.isEmpty then .error .notFound
  else if pathLimit < path.utf8ByteSize then .error .nameTooLong
  else if Text.beginsWith path "/" then .ok []
  else .ok directory.working

/-- Where a path leads; there need not be anything. -/
def locate (directory : Directory) (path : String) :
    Except DeviceError Place := do
  directory.walk (← directory.origin path) (Text.parts '/' path)

/-- Where a file with a path would be made.  A slash at the end of the path
asks for a folder, whatever its last name is. -/
def locateFile (directory : Directory) (path : String) :
    Except DeviceError Place := do
  let start ← directory.origin path
  let names := (Text.parts '/' path).reverse
  match names.dropWhile (· = "") with
  | [] => throw .isFolder
  | last :: above =>
      let place ← directory.walk start above.reverse
      directory.ensureFolder place
      if names.head? = some "" then throw .isFolder
      directory.walk place [last]

def find (directory : Directory) (path : String) : Except DeviceError Node := do
  match directory.node? (← directory.locate path) with
  | none => throw .notFound
  | some node => return node

/-! ## Input -/

/-- The bytes that a device is read for.  There is no end of zeros, but the
first eight are all that is looked at. -/
def Device.bytes : Device → List UInt8
  | .null => []
  | .zero | .full => List.replicate 8 0

/-- Opens a path for reading.  A folder can be opened, but refuses to be
read. -/
def openInput (directory : Directory) (path : String) :
    Except DeviceError Source := do
  match ← directory.find path with
  | .folder => return .broken .isFolder
  | .file bytes => return .ofList bytes
  | .device device => return .ofList (Device.bytes device)

def readFile (directory : Directory) (path : String) :
    Except DeviceError (List UInt8) := do
  let source ← directory.openInput path
  match source.breakage with
  | some (_, error) => throw error
  | none => return source.rest

/-- The size of the file that a path leads to.  What is no file counts as
having none. -/
def fileSize (directory : Directory) (path : String) :
    Except DeviceError Nat := do
  match ← directory.find path with
  | .file bytes => return bytes.length
  | _ => return 0

/-! ## Output -/

/-- What a device is written to. -/
def Device.medium : Device → Medium
  | .null | .zero => .unbounded
  | .full => .buffered 0 Medium.bufferSize

/-- A path that was opened for writing. -/
structure Output where
  medium : Medium
  /-- The file that takes what is written; a device has none. -/
  place : Option Place
  deriving DecidableEq, Repr

/-- Opens a path for writing.  A file is emptied, or made if there is none. -/
def createOutput (directory : Directory) (path : String) :
    Except DeviceError (Output × Directory) := do
  let place ← directory.locateFile path
  match directory.node? place with
  | some .folder => throw .isFolder
  | some (.device device) => return (⟨Device.medium device, none⟩, directory)
  | _ =>
      return (⟨directory.medium place, some place⟩,
        directory.insert place (.file []))

/-- Leaves in an output what its medium keeps. -/
def store (directory : Directory) (output : Output) (content : List UInt8) :
    Directory :=
  match output.place with
  | none => directory
  | some place => directory.insert place (.file (output.medium.kept content))

/-- The files that stand in a directory, but not in an earlier one with the
same bytes. -/
def changesSince (directory before : Directory) : List (Place × List UInt8) :=
  directory.nodes.filterMap fun (place, node) =>
    match node with
    | .file bytes =>
        if before.node? place = some node then none else some (place, bytes)
    | _ => none

end Directory

end PackedTopology
