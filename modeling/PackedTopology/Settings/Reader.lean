import PackedTopology.Decimal.Layout
import PackedTopology.Json.Number
import PackedTopology.Json.Quoted
import PackedTopology.Settings.Basic
import PackedTopology.Text.Quoted

/-!
# Settings in a text

Settings are an object with at most one member per setting, or a list of them
in order; what is left out keeps its standard value.  A value of the wrong
kind is reported with what was found and what was wanted, just past it.  A
member with an unknown name or a second one with the same name is reported
only after a look at what follows it, so the place is that of the closing
brace if it comes next.
-/

namespace PackedTopology.Settings

open PackedTopology.Json
open PackedTopology.Json.Reading

/-- Numbers in messages keep a fraction and sign every exponent. -/
def foundLayout : NumberLayout :=
  ⟨.even, some (-5, 16), true, true⟩

def foundNumber : Json.Number → String
  | .natural value => s!"integer \x60{value}\x60"
  | .negative value => s!"integer \x60{value}\x60"
  | .scalar value => s!"floating point \x60{foundLayout.text value}\x60"

/-- Takes a word that has to come next. -/
def word (text : String) : Reading Unit :=
  (Text.encode text).forM fun byte => do
    match ← next with
    | none => failHere "EOF while parsing a value"
    | some found => if found ≠ byte then failHere "expected ident"

def foundAt (byte : UInt8) : Reading String := do
  match Char.ofNat byte.toNat with
  | 'n' => skip; word "ull"; return "null"
  | 't' => skip; word "rue"; return "boolean \x60true\x60"
  | 'f' => skip; word "alse"; return "boolean \x60false\x60"
  | '-' => skip; return foundNumber (← Json.Number.read true)
  | '"' => skip; return s!"string {Text.quoted (← Json.Quoted.read)}"
  | '[' => return "sequence"
  | '\x7b' => return "map"
  | c =>
      if c.isDigit then
        return foundNumber (← Json.Number.read false)
      else
        failNext "expected value"

def failKind {α : Type} (byte : UInt8) (wanted : String) : Reading α := do
  let found ← foundAt byte
  failHere s!"invalid type: {found}, expected {wanted}"

def startValue : Reading UInt8 := do
  match ← peekToken with
  | some byte => return byte
  | none => failHere "EOF while parsing a value"

def readCount : Reading Nat := do
  let first ← startValue
  let minus := first = '-'.toUInt8
  if minus || isDigit first then
    if minus then skip
    match ← Json.Number.read minus with
    | .natural value => return value
    | .negative value =>
        failHere s!"invalid value: integer \x60{value}\x60, expected usize"
    | .scalar value =>
        let found := foundNumber (.scalar value)
        failHere s!"invalid type: {found}, expected usize"
  else
    failKind first "usize"

def readFlag : Reading Bool := do
  let first ← startValue
  if first = 't'.toUInt8 then
    skip
    word "rue"
    return true
  else if first = 'f'.toUInt8 then
    skip
    word "alse"
    return false
  else
    failKind first "a boolean"

def readText : Reading String := do
  let first ← startValue
  if first = '"'.toUInt8 then
    skip
    Json.Quoted.read
  else
    failKind first "a string"

/-- The settings found so far. -/
structure Draft where
  maxVertices : Option Nat
  csvHeaders : Option Bool
  logDirectives : Option String

namespace Draft

def empty : Draft :=
  ⟨none, none, none⟩

/-- The settings, with the standard values for what was not found. -/
def settings (draft : Draft) : Settings :=
  ⟨draft.maxVertices.getD standard.maxVertices,
    draft.csvHeaders.getD standard.csvHeaders,
    draft.logDirectives.getD standard.logDirectives⟩

end Draft

def endObject : Reading Unit := do
  match ← peekToken with
  | none => failHere "EOF while parsing an object"
  | some byte =>
      if byte = '\x7d'.toUInt8 then skip
      else if byte = ','.toUInt8 then failNext "trailing comma"
      else failNext "trailing characters"

/-- Reports a member, past the end of the object if that comes next. -/
def failMember {α : Type} (reason : String) : Reading α := do
  if (← peekToken) = some '\x7d'.toUInt8 then skip
  failHere reason

/-- Whether another member follows; if so, its opening quote is next. -/
def hasMember (first : Bool) : Reading Bool := do
  match ← peekToken with
  | none => failHere "EOF while parsing an object"
  | some byte =>
      if byte = '\x7d'.toUInt8 then
        return false
      else if first then
        if byte = '"'.toUInt8 then return true
        else failNext "key must be a string"
      else if byte = ','.toUInt8 then
        skip
        match ← peekToken with
        | none => failHere "EOF while parsing a value"
        | some byte =>
            if byte = '"'.toUInt8 then return true
            else if byte = '\x7d'.toUInt8 then failNext "trailing comma"
            else failNext "key must be a string"
      else
        failNext "expected \x60,\x60 or \x60\x7d\x60"

def colon : Reading Unit := do
  match ← peekToken with
  | none => failHere "EOF while parsing an object"
  | some byte =>
      if byte = ':'.toUInt8 then skip else failNext "expected \x60:\x60"

/-- The value of a member that must not have been found before. -/
def memberValue {α : Type} (name : String) (found : Option α)
    (read : Reading α) : Reading (Option α) := do
  if found.isSome then
    failMember s!"duplicate field \x60{name}\x60"
  else
    colon
    some <$> read

def member (draft : Draft) : Reading Draft := do
  skip
  match ← Json.Quoted.read with
  | "max_vertices" =>
      let value ← memberValue "max_vertices" draft.maxVertices readCount
      return { draft with maxVertices := value }
  | "csv_headers" =>
      let value ← memberValue "csv_headers" draft.csvHeaders readFlag
      return { draft with csvHeaders := value }
  | "log_directives" =>
      let value ← memberValue "log_directives" draft.logDirectives readText
      return { draft with logDirectives := value }
  | name =>
      failMember <| s!"unknown field \x60{name}\x60, expected one of " ++
        "\x60max_vertices\x60, \x60csv_headers\x60, \x60log_directives\x60"

/-- The members of an object.  Each one fills a gap of the draft, so after
`gaps` of them nothing but the end can follow. -/
def members (first : Bool) (draft : Draft) : Nat → Reading Draft
  | 0 => return draft
  | gaps + 1 => do
      if ← hasMember first then
        members false (← member draft) gaps
      else
        return draft

/-- An object of settings, its opening brace already read. -/
def object : Reading Draft := do
  let draft ← members true .empty 4
  endObject
  return draft

def hasElement (first : Bool) : Reading Bool := do
  match ← peekToken with
  | none => failHere "EOF while parsing a list"
  | some byte =>
      if byte = ']'.toUInt8 then
        return false
      else if first then
        return true
      else if byte = ','.toUInt8 then
        skip
        match ← peekToken with
        | none => failHere "EOF while parsing a value"
        | some byte =>
            if byte = ']'.toUInt8 then failNext "trailing comma"
            else return true
      else
        failNext "expected \x60,\x60 or \x60]\x60"

def element {α : Type} (first : Bool) (read : Reading α) :
    Reading (Option α) := do
  if ← hasElement first then some <$> read else return none

def endList : Reading Unit := do
  match ← peekToken with
  | none => failHere "EOF while parsing a list"
  | some byte =>
      if byte = ']'.toUInt8 then
        skip
      else if byte = ','.toUInt8 then
        skip
        if (← peekToken) = some ']'.toUInt8 then
          failNext "trailing comma"
        else
          failNext "trailing characters"
      else
        failNext "trailing characters"

/-- A list of settings, its opening bracket already read. -/
def sequence : Reading Draft := do
  let maxVertices ← element true readCount
  let csvHeaders ← element false readFlag
  let logDirectives ← element false readText
  endList
  return ⟨maxVertices, csvHeaders, logDirectives⟩

def document : Reading Draft := do
  let first ← startValue
  let draft ← if first = '['.toUInt8 then do
      skip
      sequence
    else if first = '\x7b'.toUInt8 then do
      skip
      object
    else
      failKind first "struct Config"
  match ← peekToken with
  | some _ => failNext "trailing characters"
  | none => return draft

def ofText (text : String) : Except Fault Settings :=
  match document.run (.ofText text) with
  | .error mistake => .error (.settings mistake.message)
  | .ok (draft, _) => draft.settings.check

end PackedTopology.Settings
