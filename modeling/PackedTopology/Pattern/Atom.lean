import PackedTopology.Pattern.Basic
import PackedTopology.Text.Digit

/-!
# Atoms of patterns

An atom is a single character of a pattern, or a backslash and what it gives
another meaning to.  No more is known about characters than their numbers:
which of them are digits, blanks or parts of words, and which are cases of one
letter, can be told of bytes below 128 only.  A pattern about bytes must not
describe anything that is no text, so it is held to those bytes.
-/

namespace PackedTopology.Pattern

/-- What a pattern is made of. -/
inductive Atom
  /-- A character with a number. -/
  | character (number : Nat)
  /-- A character whose number is given by two digits; it can be meant as a
  byte. -/
  | byte (number : Nat)
  /-- A class that stands for nearly everything. -/
  | any
  /-- A class that has a letter for its name. -/
  | shorthand (negated : Bool)
  /-- A position in a text. -/
  | position
  /-- A position at the edge of a word, or inside of one. -/
  | wordEdge
  deriving DecidableEq, Repr

/-- The bytes below are texts of one character each. -/
def byteLimit : Nat :=
  0x80

namespace Atom

def number? : Atom → Option Nat
  | .character number => some number
  | .byte number => some number
  | _ => none

def fits (mode : Mode) : Atom → Bool
  | .character _ => !(mode.wide && mode.caseless)
  | .byte number => if mode.wide then !mode.caseless else number < byteLimit
  | .any => mode.wide
  | .shorthand negated => !mode.wide && !negated
  | .position | .wordEdge => true

def fitsBracket (mode : Mode) : Atom → Bool
  | .character number | .byte number =>
      if mode.wide then !mode.caseless else number < byteLimit
  | .shorthand negated => !mode.wide && !negated
  | .any | .position | .wordEdge => false

/-- The number that some digits stand for, after those read so far. -/
def digits (mode : Mode) : (count : Nat) → (number : Nat) → List Char →
    Option (Nat × List Char)
  | 0, number, text => some (number, text)
  | _ + 1, _, [] => none
  | count + 1, number, c :: rest => do
      let digit ← Text.digitIn 16 c
      digits mode count (16 * number + digit) (mode.skip rest)

def numbered (mode : Mode) (count : Nat) (text : List Char) :
    Option (Nat × List Char) := do
  let (number, rest) ← digits mode count 0 (mode.skip text)
  if number.isValidChar then some (number, rest) else none

/-- The atom that begins with a backslash, which comes before the text. -/
def escaped (mode : Mode) : List Char → Option (Atom × List Char)
  | [] => none
  | c :: rest =>
      match c with
      | 'x' => (numbered mode 2 rest).map fun (number, rest) =>
          (.byte number, rest)
      | 'u' => (numbered mode 4 rest).map fun (number, rest) =>
          (.character number, rest)
      | 'U' => (numbered mode 8 rest).map fun (number, rest) =>
          (.character number, rest)
      | 'd' | 's' | 'w' => some (.shorthand false, rest)
      | 'D' | 'S' | 'W' => some (.shorthand true, rest)
      | 'a' => some (.character 0x7, rest)
      | 't' => some (.character 0x9, rest)
      | 'n' => some (.character 0xA, rest)
      | 'v' => some (.character 0xB, rest)
      | 'f' => some (.character 0xC, rest)
      | 'r' => some (.character 0xD, rest)
      | 'A' | 'z' => some (.position, rest)
      | 'b' | 'B' | '<' | '>' => some (.wordEdge, rest)
      | c =>
          if c.toNat < byteLimit && !c.isAlphanum then
            some (.character c.toNat, rest)
          else
            none

end Atom

end PackedTopology.Pattern
