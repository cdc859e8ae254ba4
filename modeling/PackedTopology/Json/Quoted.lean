import PackedTopology.Json.Cursor
import PackedTopology.Text.Digit

/-!
# Quoted texts

A quoted text ends at the first quote that is not escaped.  An escape is a
backslash and a letter, or the letter `u` and four hexadecimal digits; a
character beyond the first plane takes two such escapes, a leading and a
trailing one.  Control characters have to be escaped.
-/

namespace PackedTopology.Json.Quoted

open Reading

def hexValue (byte : UInt8) : Option Nat :=
  Text.digitIn 16 (Char.ofNat byte.toNat)

def hexNumber (bytes : List UInt8) : Option Nat :=
  bytes.foldlM (fun number byte => (hexValue byte).map (16 * number + ·)) 0

def failEnd {α : Type} : Reading α :=
  failHere "EOF while parsing a string"

/-- The number of an escape, four bytes long. -/
def hexEscape : Reading Nat := do
  let four := (← get).rest.take 4
  four.forM fun _ => skip
  if four.length < 4 then
    failEnd
  else
    match hexNumber four with
    | some number => return number
    | none => failHere "invalid escape"

def isTrailing (number : Nat) : Bool :=
  0xDC00 ≤ number && number ≤ 0xDFFF

def isLeading (number : Nat) : Bool :=
  0xD800 ≤ number && number ≤ 0xDBFF

/-- Takes a byte that has to come next inside an escape. -/
def expect (byte : UInt8) : Reading Unit := do
  match ← next with
  | none => failEnd
  | some found =>
      if found ≠ byte then failHere "unexpected end of hex escape"

def numberedEscape : Reading Char := do
  let number ← hexEscape
  if isTrailing number then
    failHere "lone leading surrogate in hex escape"
  else if isLeading number then
    expect '\\'.toUInt8
    expect 'u'.toUInt8
    let second ← hexEscape
    if isTrailing second then
      return Char.ofNat
        (0x10000 + 0x400 * (number - 0xD800) + (second - 0xDC00))
    else
      failHere "lone leading surrogate in hex escape"
  else
    return Char.ofNat number

def letterEscape (byte : UInt8) : Option Char :=
  match Char.ofNat byte.toNat with
  | '"' => some '"'
  | '\\' => some '\\'
  | '/' => some '/'
  | 'b' => some '\x08'
  | 'f' => some '\x0c'
  | 'n' => some '\n'
  | 'r' => some '\r'
  | 't' => some '\t'
  | _ => none

/-- The character of an escape, its backslash already read. -/
def escape : Reading Char := do
  match ← next with
  | none => failEnd
  | some byte =>
      if byte = 'u'.toUInt8 then
        numberedEscape
      else
        match letterEscape byte with
        | some c => return c
        | none => failHere "invalid escape"

/-- The bytes of a text up to its closing quote, after those in `got`, which
are in reverse.  Each round takes a byte, so there are fewer rounds than
`fuel`, the bytes left. -/
def bytesAfter (got : List UInt8) : Nat → Reading (List UInt8)
  | 0 => failEnd
  | fuel + 1 => do
      match ← next with
      | none => failEnd
      | some byte =>
          if byte = '"'.toUInt8 then
            return got.reverse
          else if byte = '\\'.toUInt8 then
            let c ← escape
            bytesAfter ((String.utf8EncodeChar c).reverse ++ got) fuel
          else if byte < ' '.toUInt8 then
            failHere
              "control character (\\u0000-\\u001F) found while parsing a string"
          else
            bytesAfter (byte :: got) fuel

/-- A text, its opening quote already read. -/
def read : Reading String := do
  let bytes ← bytesAfter [] ((← get).rest.length + 1)
  match Text.decode bytes with
  | .ok text => return String.ofList text
  | .error _ => failHere "invalid unicode code point"

end PackedTopology.Json.Quoted
