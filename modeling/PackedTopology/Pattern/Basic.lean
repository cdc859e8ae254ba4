import PackedTopology.Text.Blank

/-!
# Modes and nesting of patterns

A pattern describes texts: a character stands for itself, and some characters
stand for classes of characters, for positions, for repetitions and for
alternatives.  How it is read depends on a mode, which can change from a place
to the end of the group around it.  How deep a pattern nests is limited.
-/

namespace PackedTopology.Pattern

/-- What is wrong with a pattern. -/
inductive PatternError
  /-- It is not well formed, or needs to know more about characters than which
  of them are letters. -/
  | malformed
  /-- It asks for the edge of a word of any script. -/
  | wordEdge
  deriving DecidableEq, Repr

def PatternError.message : PatternError → String
  | .malformed => "error building NFA"
  | .wordEdge =>
      "unsupported regex feature for DFAs: cannot build DFAs for regexes " ++
        "with Unicode word boundaries; switch to ASCII word boundaries, or " ++
        "heuristically enable Unicode word boundaries or use a different " ++
        "regex engine"

/-! ## Modes -/

/-- How a part of a pattern is read. -/
structure Mode where
  /-- Whether blanks and comments are skipped. -/
  spaced : Bool
  /-- Whether the case of letters does not matter. -/
  caseless : Bool
  /-- Whether it is about characters; otherwise it is about bytes. -/
  wide : Bool
  deriving DecidableEq, Repr

namespace Mode

def standard : Mode :=
  ⟨false, false, true⟩

/-- The letters of the flags.  Those that are not about a field of the mode
make no difference to what is well formed. -/
def flags : List Char :=
  ['i', 'm', 's', 'U', 'u', 'R', 'x']

def change (value : Bool) (mode : Mode) (flag : Char) : Mode :=
  match flag with
  | 'x' => { mode with spaced := value }
  | 'i' => { mode with caseless := value }
  | 'u' => { mode with wide := value }
  | _ => mode

/-- Skips blanks, and comments, which go from a hash sign to the end of the
line. -/
def skipBlanks : (comment : Bool) → List Char → List Char
  | _, [] => []
  | true, c :: rest => skipBlanks (c != '\n') rest
  | false, c :: rest =>
      if Text.isBlank c then skipBlanks false rest
      else if c = '#' then skipBlanks true rest
      else c :: rest

def skip (mode : Mode) (text : List Char) : List Char :=
  if mode.spaced then skipBlanks false text else text

/-- The character that is looked at to tell what comes next.  Of a comment
only the hash sign is left out. -/
def peek (mode : Mode) (text : List Char) : Option Char :=
  if mode.spaced then
    match text.dropWhile Text.isBlank with
    | '#' :: rest => (rest.dropWhile Text.isBlank).head?
    | rest => rest.head?
  else
    text.head?

end Mode

/-! ## Nesting -/

def depthLimit : Nat :=
  250

/-- Things side by side: how many there are, and how deep the deepest of them
nests. -/
structure Row where
  count : Nat
  deepest : Nat
  deriving DecidableEq, Repr

namespace Row

def empty : Row :=
  ⟨0, 0⟩

def add (row : Row) (depth : Nat) : Row :=
  ⟨row.count + 1, max row.deepest depth⟩

def raise (row : Row) (depth : Nat) : Row :=
  { row with deepest := max row.deepest depth }

/-- How deep a row nests: several things take a level to hold them. -/
def depth (row : Row) : Nat :=
  if row.count ≤ 1 then row.deepest else row.deepest + 1

end Row

end PackedTopology.Pattern
