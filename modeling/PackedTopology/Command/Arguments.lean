import PackedTopology.Table.Cell

/-!
# Arguments of the commands

The program has six commands.  Each has a fixed number of paths and at most
one option of its own; three options go with all of them and may stand before
or after the name of the command.  Options may stand between the paths, each
at most once on either side of the name.  The value of an option follows it,
after an equals sign or as the next argument, and cannot look like an option
itself; a lone dash does not look like one.  After two dashes all arguments
are paths.
-/

namespace PackedTopology.Command

/-- What the program can be asked to do. -/
inductive Request
  | pack (input output : String) (segments : Nat)
  | unpack (input output : String)
  | inspect (input : String) (json : Bool)
  | packIndex (mapping constraints output : String)
  | unpackIndex (input mapping constraints : String)
  | inspectIndex (input : String) (json : Bool)
  deriving DecidableEq, Repr

/-- A request and the options that go with every request. -/
structure Invocation where
  settingsPath : Option String
  verbose : Bool
  jsonLog : Bool
  request : Request
  deriving DecidableEq, Repr

/-- Why there is nothing to do. -/
inductive Declined
  /-- The user asked for help. -/
  | help
  /-- The arguments make no sense. -/
  | usage
  deriving DecidableEq, Repr

/-- The names of the commands. -/
inductive Name
  | pack
  | unpack
  | inspect
  | packIndex
  | unpackIndex
  | inspectIndex
  deriving DecidableEq, Repr

namespace Name

def table : List (String × Name) :=
  [("pack", .pack), ("unpack", .unpack), ("inspect", .inspect),
    ("pack-index", .packIndex), ("unpack-index", .unpackIndex),
    ("inspect-index", .inspectIndex)]

def paths : Name → Nat
  | .pack => 2
  | .unpack => 2
  | .inspect => 1
  | .packIndex => 3
  | .unpackIndex => 3
  | .inspectIndex => 1

def takesSegments (name : Name) : Bool :=
  name = .pack

def takesJson (name : Name) : Bool :=
  name = .inspect || name = .inspectIndex

end Name

def usage : String :=
  "Usage: topocodec [--config FILE] [--verbose] [--log-json] COMMAND\n\n" ++
  "Commands:\n" ++
  "  pack INPUT OUTPUT --segments COUNT\n" ++
  "  unpack INPUT OUTPUT\n" ++
  "  inspect INPUT [--json]\n" ++
  "  pack-index MAPPING CONSTRAINTS OUTPUT\n" ++
  "  unpack-index INPUT MAPPING CONSTRAINTS\n" ++
  "  inspect-index INPUT [--json]\n"

/-- The arguments found on one side of the name of the command. -/
structure Found where
  settingsPath : Option String
  verbose : Bool
  jsonLog : Bool
  segments : Option Nat
  json : Bool
  paths : List String
  deriving DecidableEq, Repr

namespace Found

def nothing : Found :=
  ⟨none, false, false, none, false, []⟩

end Found

def segmentsOf? (text : String) : Option Nat :=
  match Table.signedDigits .long 10 text.toList with
  | .ok number => some number.toNat
  | .error _ => none

/-- Sets an option without a value; it must not have been set. -/
def setFlag (name : Option Name) (option : String) (found : Found) :
    Except Declined Found :=
  match option with
  | "verbose" =>
      if found.verbose then .error .usage
      else .ok { found with verbose := true }
  | "log-json" =>
      if found.jsonLog then .error .usage
      else .ok { found with jsonLog := true }
  | "json" =>
      if found.json || !(name.map Name.takesJson).getD false then .error .usage
      else .ok { found with json := true }
  | "help" => .error .help
  | _ => .error .usage

def hasValue (name : Option Name) (option : String) : Bool :=
  option = "config" ||
    (option = "segments" && (name.map Name.takesSegments).getD false)

/-- Sets an option with a value; it must not have been set. -/
def setValue (option value : String) (found : Found) : Except Declined Found :=
  if option = "config" then
    if found.settingsPath.isSome || value.isEmpty then .error .usage
    else .ok { found with settingsPath := some value }
  else
    match found.segments, segmentsOf? value with
    | none, some segments => .ok { found with segments := some segments }
    | _, _ => .error .usage

def setLetters (name : Option Name) :
    List Char → Found → Except Declined Found
  | [], found => .ok found
  | 'v' :: letters, found => do
      setLetters name letters (← setFlag name "verbose" found)
  | 'h' :: _, _ => .error .help
  | _, _ => .error .usage

/-- Adds a path, if the command takes another one. -/
def addPath (name : Name) (path : String) (found : Found) :
    Except Declined Found :=
  if path.isEmpty || name.paths ≤ found.paths.length then .error .usage
  else .ok { found with paths := found.paths ++ [path] }

/-- An argument, as far as its own text tells. -/
inductive Shape
  | separator
  /-- An option by its name, perhaps with a value. -/
  | long (option : String) (value : Option String)
  /-- Options by their letters. -/
  | short (letters : List Char)
  | plain
  deriving DecidableEq, Repr

def shapeOf (argument : String) : Shape :=
  match argument.toList with
  | ['-', '-'] => .separator
  | '-' :: '-' :: text =>
      match text.dropWhile (· ≠ '=') with
      | [] => .long (String.ofList text) none
      | _ :: value =>
          .long (String.ofList (text.takeWhile (· ≠ '=')))
            (some (String.ofList value))
  | '-' :: letter :: letters => .short (letter :: letters)
  | _ => .plain

def afterName (name : Name) : List String → Found → Except Declined Found
  | [], found => .ok found
  | argument :: rest, found =>
      match shapeOf argument with
      | .separator =>
          rest.foldlM (fun found path => addPath name path found) found
      | .plain => do
          afterName name rest (← addPath name argument found)
      | .short letters => do
          afterName name rest (← setLetters name letters found)
      | .long option none =>
          if hasValue name option then
            match rest with
            | [] => .error .usage
            | value :: rest =>
                if shapeOf value = .plain then do
                  afterName name rest (← setValue option value found)
                else
                  .error .usage
          else do
            afterName name rest (← setFlag name option found)
      | .long option (some value) =>
          if hasValue name option then do
            afterName name rest (← setValue option value found)
          else
            .error .usage

/-- What follows the word for help: nothing, or the name of a command. -/
def helpAbout : List String → Declined
  | [] => .help
  | [name] =>
      if name = "help" || (Name.table.lookup name).isSome then .help
      else .usage
  | _ => .usage

/-- The arguments up to the name of the command, that name, and the arguments
after it. -/
def beforeName : List String → Found → Except Declined (Found × Name × Found)
  | [], _ => .error .usage
  | argument :: rest, found =>
      match shapeOf argument with
      | .separator => .error .usage
      | .plain =>
          match Name.table.lookup argument with
          | some name => do
              return (found, name, ← afterName name rest .nothing)
          | none =>
              .error (if argument = "help" then helpAbout rest else .usage)
      | .short letters => do
          beforeName rest (← setLetters none letters found)
      | .long option none =>
          if hasValue none option then
            match rest with
            | [] => .error .usage
            | value :: rest =>
                if shapeOf value = .plain then do
                  beforeName rest (← setValue option value found)
                else
                  .error .usage
          else do
            beforeName rest (← setFlag none option found)
      | .long option (some value) =>
          if hasValue none option then do
            beforeName rest (← setValue option value found)
          else
            .error .usage

def requestOf (name : Name) (found : Found) : Option Request :=
  match name, found.paths, found.segments with
  | .pack, [input, output], some segments => some (.pack input output segments)
  | .unpack, [input, output], _ => some (.unpack input output)
  | .inspect, [input], _ => some (.inspect input found.json)
  | .packIndex, [mapping, constraints, output], _ =>
      some (.packIndex mapping constraints output)
  | .unpackIndex, [input, mapping, constraints], _ =>
      some (.unpackIndex input mapping constraints)
  | .inspectIndex, [input], _ => some (.inspectIndex input found.json)
  | _, _, _ => none

/-- The invocation that a list of arguments stands for.  Of two paths to
settings the one after the name counts. -/
def Invocation.ofArguments (arguments : List String) :
    Except Declined Invocation := do
  let (before, name, after) ← beforeName arguments .nothing
  match requestOf name after with
  | none => .error .usage
  | some request =>
      return {
        settingsPath := after.settingsPath.or before.settingsPath
        verbose := before.verbose || after.verbose
        jsonLog := before.jsonLog || after.jsonLog
        request := request }

end PackedTopology.Command
