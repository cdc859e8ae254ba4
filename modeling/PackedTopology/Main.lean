import PackedTopology.Command.Run

/-!
# The program

The outer layer of the program: it takes the arguments for paths and reads
what stands there, runs the command on that directory, writes back the files
that changed, and prints.
-/

namespace PackedTopology.Program

def placesFrom (place : Place) : List String → List Place
  | [] => [place]
  | name :: names => place :: placesFrom (Directory.follow place name) names

def placesOn (working : Place) (path : String) : List Place :=
  let start := if Text.beginsWith path "/" then [] else working
  placesFrom [] (start ++ Text.parts '/' path)

def pathOf (place : Place) : String :=
  "/" ++ String.intercalate "/" place

/-- The paths that arguments may name, alone or after an equals sign. -/
def pathsIn (arguments : List String) : List String :=
  arguments ++ arguments.filterMap fun argument =>
    match Text.parts '=' argument with
    | _ :: second :: rest => some (String.intercalate "=" (second :: rest))
    | _ => none

/-- Reads what stands at a place, unless it is known already. -/
def load (directory : Directory) (place : Place) : IO Directory := do
  if (directory.node? place).isSome then return directory
  let path := (← IO.currentDir) / pathOf place
  if ← path.isDir then
    return directory.insert place .folder
  if ← path.pathExists then
    let bytes ← IO.FS.readBinFile path
    return directory.insert place (.file bytes.toList)
  return directory

def loadAll (arguments : List String) : IO Directory := do
  let here := (← IO.currentDir).toString
  let working := (Text.parts '/' here).filter (· ≠ "")
  let places := ((pathsIn arguments).map (placesOn working)).flatten
  places.foldlM load (Directory.empty working)

def save (before after : Directory) : IO Unit := do
  for (place, bytes) in after.changesSince before do
    IO.FS.writeBinFile (pathOf place) (ByteArray.mk bytes.toArray)

def run (arguments : List String) : IO UInt32 := do
  let before ← loadAll arguments
  let outcome := Command.run before (← IO.getEnv "RUST_LOG") arguments
  save before outcome.directory
  IO.print outcome.printed
  IO.eprint (outcome.logText ++ outcome.complaints)
  match Command.Invocation.ofArguments arguments with
  | .error .help => IO.print Command.usage
  | .error .usage => IO.eprint Command.usage
  | .ok _ => pure ()
  return UInt32.ofNat outcome.exit

end PackedTopology.Program

def main (arguments : List String) : IO UInt32 :=
  PackedTopology.Program.run arguments
