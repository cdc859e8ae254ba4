/-!
# Characters in bytes

A character takes one to four bytes.  The first byte says how many follow and
gives the highest bits; each of the others gives six more.  No character is
written longer than needed, and surrogates are no characters.  Bytes that are
no text are reported with the number of bytes of whole characters before them.
-/

namespace PackedTopology.Text

/-- The bytes that follow a first byte, the bits that it gives, and the least
code point that needs so many bytes. -/
def leadingByte (byte : UInt8) : Option (Nat × Nat × Nat) :=
  let n := byte.toNat
  if n < 0x80 then some (0, n, 0)
  else if n < 0xC0 then none
  else if n < 0xE0 then some (1, n - 0xC0, 0x80)
  else if n < 0xF0 then some (2, n - 0xE0, 0x800)
  else if n < 0xF8 then some (3, n - 0xF0, 0x10000)
  else none

def continuation : Nat → Nat → List UInt8 → Option Nat
  | 0, point, _ => some point
  | _ + 1, _, [] => none
  | count + 1, point, byte :: bytes =>
      if 0x80 ≤ byte ∧ byte < 0xC0 then
        continuation count (0x40 * point + (byte.toNat - 0x80)) bytes
      else
        none

/-- The character that starts with a byte, and how many bytes follow it. -/
def character? (first : UInt8) (bytes : List UInt8) : Option (Char × Nat) :=
  match leadingByte first with
  | none => none
  | some (count, bits, least) =>
      match continuation count bits bytes with
      | none => none
      | some point =>
          if point.isValidChar ∧ least ≤ point then
            some (Char.ofNat point, count)
          else
            none

/-- The characters of some bytes, after those in `got`; where the bytes stop
being characters, the number of bytes before that. -/
def decodeAfter (got : Array Char) (before : Nat) (bytes : List UInt8) :
    Except Nat (List Char) :=
  match bytes with
  | [] => .ok got.toList
  | first :: rest =>
      match character? first rest with
      | none => .error before
      | some (c, count) =>
          decodeAfter (got.push c) (before + count + 1) (rest.drop count)
termination_by bytes.length
decreasing_by
  rw [List.length_drop, List.length_cons]
  omega

def decode (bytes : List UInt8) : Except Nat (List Char) :=
  decodeAfter #[] 0 bytes

def encode (text : String) : List UInt8 :=
  text.toList.flatMap String.utf8EncodeChar

def byteSize : List Char → Nat
  | [] => 0
  | c :: rest => c.utf8Size + byteSize rest

/-- The characters that start within a number of bytes. -/
def takeBytes : Nat → List Char → List Char
  | 0, _ => []
  | _ + 1, [] => []
  | size + 1, c :: rest => c :: takeBytes (size + 1 - c.utf8Size) rest

def dropBytes : Nat → List Char → List Char
  | 0, text => text
  | _ + 1, [] => []
  | size + 1, c :: rest => dropBytes (size + 1 - c.utf8Size) rest

end PackedTopology.Text
