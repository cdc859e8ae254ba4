/-!
# Log messages

A message has a level, the part of the program it comes from, and some
numbers.  It is written on a line for a reader, or as an object.
-/

namespace PackedTopology

/-- How much is logged, or how little a message matters. -/
inductive LogLevel
  | off
  | error
  | warn
  | info
  | debug
  | trace
  deriving DecidableEq, Repr

namespace LogLevel

def rank : LogLevel → Nat
  | .off => 0
  | .error => 1
  | .warn => 2
  | .info => 3
  | .debug => 4
  | .trace => 5

def names : List (String × LogLevel) :=
  [("off", .off), ("error", .error), ("warn", .warn), ("info", .info),
    ("debug", .debug), ("trace", .trace)]

def title (level : LogLevel) : String :=
  ((names.find? fun entry => entry.2 = level).map fun entry =>
    entry.1.toUpper).getD ""

/-- The level with a number, which may have a sign and zeros in front. -/
def ofNumber? (text : String) : Option LogLevel :=
  let digits := match text.toList with
    | '+' :: digits => digits
    | digits => digits
  if digits ≠ [] ∧ digits.all Char.isDigit then
    match String.ofList (digits.dropWhile (· = '0')) with
    | "" => some .off
    | "1" => some .error
    | "2" => some .warn
    | "3" => some .info
    | "4" => some .debug
    | "5" => some .trace
    | _ => none
  else
    none

/-- The level that a text names, in any case, or gives the number of. -/
def ofText? (text : String) : Option LogLevel :=
  (ofNumber? text).or (names.lookup text.toLower)

end LogLevel

/-- A message with its numbers. -/
structure LogMessage where
  level : LogLevel
  source : String
  text : String
  numbers : List (String × Nat)
  deriving DecidableEq, Repr

namespace LogMessage

def line (message : LogMessage) : String :=
  let numbers := message.numbers.map fun (name, number) => s!" {name}={number}"
  s!"{message.level.title} {message.source}: {message.text}" ++
    String.join numbers

/-- A message as an object on a line, without where it comes from. -/
def object (message : LogMessage) : String :=
  let numbers := message.numbers.map fun (name, number) =>
    s!",\"{name}\":{number}"
  "\x7b\"level\":\"" ++ message.level.title ++ "\",\"message\":\"" ++
    message.text ++ "\"" ++ String.join numbers ++ "\x7d"

end LogMessage

end PackedTopology
