import PackedTopology.Pattern.Atom

/-!
# Classes in square brackets

A class has characters, ranges of characters, classes with a name, and other
classes in square brackets as members.  Two classes can be joined by a doubled
mark: what both have, what one has and the other has not, or what only one of
them has.  Dashes at the start of a class are members, and so is a closing
bracket right at the start.
-/

namespace PackedTopology.Pattern

def classNames : List String :=
  ["alnum", "alpha", "ascii", "blank", "cntrl", "digit", "graph", "lower",
    "print", "punct", "space", "upper", "word", "xdigit"]

/-- A class that is being read. -/
structure Bracket where
  /-- How deep the operand before the last mark nests. -/
  left : Option Nat
  /-- The members since then. -/
  row : Row
  /-- Whether there was nothing but dashes so far. -/
  fresh : Bool
  deriving DecidableEq, Repr

namespace Bracket

def add (bracket : Bracket) (depth : Nat) : Bracket :=
  { bracket with row := bracket.row.add depth, fresh := false }

def depth (bracket : Bracket) : Nat :=
  match bracket.left with
  | none => bracket.row.depth
  | some left => max left bracket.row.depth + 1

def join (bracket : Bracket) : Bracket :=
  ⟨some bracket.depth, .empty, false⟩

def startsWith (bracket : Bracket) (c : Char) : Bool :=
  bracket.fresh && (c = '-' || (c = ']' && bracket.row.count = 0))

/-- Reads what comes after an opening bracket.  What a class of bytes leaves
out would not be text. -/
def start (mode : Mode) (text : List Char) : Option (Bracket × List Char) :=
  let bracket : Bracket := ⟨none, .empty, true⟩
  match mode.skip text with
  | '^' :: rest => if mode.wide then some (bracket, mode.skip rest) else none
  | rest => some (bracket, rest)

/-- Whether a class with a name is negated, and what comes after it, if there
is one after an opening bracket. -/
def named? (text : List Char) : Option (Bool × List Char) :=
  match text with
  | ':' :: rest =>
      let negated := rest.head? = some '^'
      let rest := if negated then rest.drop 1 else rest
      let name := String.ofList (rest.takeWhile (· ≠ ':'))
      match rest.dropWhile (· ≠ ':') with
      | ':' :: ']' :: rest =>
          if classNames.contains name then some (negated, rest) else none
      | _ => none
  | _ => none

def fitsNamed (mode : Mode) (negated : Bool) : Bool :=
  if mode.wide then !mode.caseless else !negated

/-- An atom between brackets, where only a backslash has a meaning. -/
def atom (mode : Mode) : List Char → Option (Atom × List Char)
  | [] => none
  | '\\' :: rest => Atom.escaped mode rest
  | c :: rest => some (.character c.toNat, rest)

/-- Reads an atom, or a range from one to another.  A dash is part of a range
unless another dash or a closing bracket comes next. -/
def member (mode : Mode) (text : List Char) : Option (List Char) := do
  let (first, rest) ← atom mode text
  let rest := mode.skip rest
  let single := if first.fitsBracket mode then some rest else none
  match rest with
  | '-' :: after =>
      if [some ']', some '-'].contains (mode.peek after) then
        single
      else
        let (last, rest) ← atom mode (mode.skip after)
        let low ← first.number?
        let high ← last.number?
        if first.fitsBracket mode && last.fitsBracket mode && low ≤ high then
          some rest
        else
          none
  | _ => single

/-- Reads the rest of a class inside of others and then of those.  The result
is how deep the outermost one nests, and what comes after it.  Each round reads
a character. -/
def finish (mode : Mode) : (rounds : Nat) → (outer : List Bracket) → Bracket →
    List Char → Option (Nat × List Char)
  | 0, _, _, _ => none
  | rounds + 1, outer, bracket, text =>
      match mode.skip text with
      | [] => none
      | c :: rest =>
          if bracket.startsWith c then
            if Atom.fitsBracket mode (.character c.toNat) then
              finish mode rounds outer
                { bracket.add 0 with fresh := c = '-' } rest
            else
              none
          else
            match c, rest with
            | '[', rest =>
                match named? rest with
                | some (negated, rest) =>
                    if fitsNamed mode negated then
                      finish mode rounds outer (bracket.add 0) rest
                    else
                      none
                | none => do
                    let (inner, rest) ← start mode rest
                    finish mode rounds (bracket :: outer) inner rest
            | ']', rest =>
                let depth := bracket.depth + 1
                match outer with
                | [] => some (depth, rest)
                | bracket :: outer =>
                    finish mode rounds outer (bracket.add depth) rest
            | '&', '&' :: rest | '-', '-' :: rest | '~', '~' :: rest =>
                finish mode rounds outer bracket.join rest
            | c, rest => do
                let rest ← member mode (c :: rest)
                finish mode rounds outer (bracket.add 0) rest

def read (mode : Mode) (text : List Char) : Option (Nat × List Char) := do
  let (bracket, rest) ← start mode text
  finish mode (rest.length + 1) [] bracket rest

end Bracket

end PackedTopology.Pattern
