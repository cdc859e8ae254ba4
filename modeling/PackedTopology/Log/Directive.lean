import PackedTopology.Decimal.Literal
import PackedTopology.Log.Message
import PackedTopology.Pattern.Check
import PackedTopology.Text.Parts
import PackedTopology.Text.Utf8

/-!
# Directives on what is logged

A directive sets the highest level for the messages from the parts of the
program whose names start with its target.  It may ask for a span, which no
message is in, and for a number by its name and perhaps its value.
-/

namespace PackedTopology

/-- What is wrong with a directive. -/
inductive DirectiveError
  | malformed
  | unknownLevel
  | value (error : Pattern.PatternError)
  deriving DecidableEq, Repr

def DirectiveError.message : DirectiveError → String
  | .malformed => "invalid filter directive"
  | .unknownLevel =>
      "error parsing level filter: expected one of \"off\", \"error\", " ++
        "\"warn\", \"info\", \"debug\", \"trace\", or a number 0-5"
  | .value error => "invalid field filter: " ++ error.message

/-- The highest level for some messages: those of the parts whose names start
with a target, if they hold some numbers. -/
structure Directive where
  target : String
  level : LogLevel
  /-- Whether the directive is about what happens inside a span; no message of
  this program does. -/
  spans : Bool
  names : List String
  deriving DecidableEq, Repr

namespace Directive

def canStart (c : Char) : Bool :=
  ['[', '-', ':', '_'].contains c || Text.isAlphanumeric c

/-- The level after an equals sign; nothing stands for the highest one. -/
def levelAfter (text : List Char) : Except DirectiveError LogLevel :=
  if text.isEmpty then
    .ok .trace
  else
    match LogLevel.ofText? (String.ofList text) with
    | some level => .ok level
    | none => .error .unknownLevel

/-- The level after a closing bracket: nothing, or an equals sign and a level,
which is cut from a text at a place. -/
def levelAfterBracket (text : List Char) (place : Nat) :
    List Char → Except DirectiveError LogLevel
  | [] => .ok .trace
  | '=' :: _ => levelAfter (Text.dropBytes (place + 1) text)
  | _ => .error .malformed

/-- Refuses what cannot be the value of a number: it has to be a literal, or a
pattern for one. -/
def checkValue (value : List Char) : Except DirectiveError Unit :=
  match Scalar.ofLiteral (String.ofList value) with
  | .ok _ => .ok ()
  | .error _ => (Pattern.check value).mapError .value

/-- The name of a number and perhaps its value, between equals signs. -/
def numberOf (text : List Char) :
    Except DirectiveError (String × Option (List Char)) := do
  match Text.split '=' text with
  | name :: value :: _ => do
      checkValue value
      return (String.ofList name, some value)
  | _ => return (String.ofList text, none)

/-- The directive with a target and what stands after an opening bracket: the
name of a span or of a number in braces, a closing bracket, and perhaps a
level.  The names and the level are cut from a text, in which the place after
the bracket is given. -/
def ofBrackets (text : List Char) (target : String) (place : Nat)
    (walked : List Char) : Except DirectiveError Directive :=
  let inSpan := fun c => c ≠ ']' && c ≠ '\x7b'
  let inBraces := fun c => c ≠ '\x7d'
  let spanSize := Text.byteSize (walked.takeWhile inSpan)
  let place := place + spanSize + 1
  match walked.dropWhile inSpan with
  | [] => .error .malformed
  | ']' :: rest => do
      return ⟨target, ← levelAfterBracket text place rest, true, []⟩
  | _ :: rest =>
      let size := Text.byteSize (rest.takeWhile inBraces)
      match rest.dropWhile inBraces with
      | [] => .error .malformed
      | _ :: rest =>
          if size = 0 then
            .error .malformed
          else do
            let (name, value) ←
              numberOf (Text.takeBytes size (Text.dropBytes place text))
            match rest with
            | ']' :: rest =>
                let level ← levelAfterBracket text (place + size + 2) rest
                return ⟨target, level, spanSize ≠ 0 || value.isSome, [name]⟩
            | _ => .error .malformed

/-- The directive that a text stands for: a level, a target, or a target and
its level.  The places of its parts are counted in bytes from the first
character that is no blank, but the parts are cut at these places from the
start of the text, so blanks in front spoil it; the last part takes the blanks
at the end. -/
def ofText (text : String) : Except DirectiveError Directive :=
  let given := text.toList
  let walked := Text.trim Text.isBlank given
  let inTarget := fun c => c ≠ '=' && c ≠ '['
  let size := Text.byteSize (walked.takeWhile inTarget)
  let target := String.ofList (Text.takeBytes size given)
  if !walked.head?.any canStart then
    .error .malformed
  else
    match walked.dropWhile inTarget with
    | [] =>
        match LogLevel.ofText? text with
        | some level => .ok ⟨"", level, false, []⟩
        | none => .ok ⟨text, .trace, false, []⟩
    | '=' :: _ => do
        let level ← levelAfter (Text.dropBytes (size + 1) given)
        return ⟨target, level, false, []⟩
    | _ :: rest => ofBrackets given target (size + 1) rest

/-- Whether a directive applies to a message.  The text of a message counts as
one of its numbers. -/
def appliesTo (directive : Directive) (message : LogMessage) : Bool :=
  !directive.spans && Text.beginsWith message.source directive.target &&
    directive.names.all fun name =>
      name = "message" || (message.numbers.lookup name).isSome

/-- Whether a directive comes before another one: the longer target, then the
greater number of names, then the later names. -/
def precedes (directive other : Directive) : Bool :=
  let size := directive.target.utf8ByteSize
  let otherSize := other.target.utf8ByteSize
  otherSize < size ||
    (otherSize = size &&
      (other.names.length < directive.names.length ||
        (other.names.length = directive.names.length &&
          decide (other.names < directive.names))))

end Directive

end PackedTopology
