import PackedTopology.Pattern.Bracket
import PackedTopology.Text.Letter

/-!
# Well-formed patterns

A pattern is a sequence of atoms, classes, groups in parentheses and
repetitions, and several sequences can be alternatives.  A group can have a
name, or flags that change the mode inside of it; flags alone change the mode
up to the end of the group around them.  The check reads a pattern once and
keeps how deep what it has read nests.

The patterns that are checked have no closing brace, so a repetition that is
counted, a number in braces, and a property in braces never end.
-/

namespace PackedTopology.Pattern

/-- A group that is being read. -/
structure Group where
  mode : Mode
  /-- The alternatives that are finished. -/
  alternatives : Row
  /-- The sequence after them. -/
  row : Row
  /-- How deep the last thing in it nests, if it can be repeated. -/
  last : Option Nat
  deriving DecidableEq, Repr

namespace Group

def empty (mode : Mode) : Group :=
  ⟨mode, .empty, .empty, none⟩

def add (group : Group) (depth : Nat) : Group :=
  { group with row := group.row.add depth, last := some depth }

def repeatLast (group : Group) : Option Group :=
  group.last.map fun depth =>
    { group with row := group.row.raise (depth + 1), last := some (depth + 1) }

/-- The group after flags, which cannot be repeated. -/
def changeMode (group : Group) (mode : Mode) : Group :=
  { group with mode, row := group.row.add 0, last := none }

def addAlternative (group : Group) : Group :=
  { empty group.mode with
    alternatives := group.alternatives.add group.row.depth }

def depth (group : Group) : Nat :=
  (group.alternatives.add group.row.depth).depth

end Group

/-- What an opening parenthesis begins. -/
inductive Opening
  | group (mode : Mode) (name : Option (List Char))
  | flags (mode : Mode)
  deriving DecidableEq, Repr

namespace Opening

def isNameCharacter (c : Char) : Bool :=
  ['_', '.', '[', ']'].contains c || Text.isAlphanumeric c

def name (text : List Char) : Option (List Char × List Char) :=
  match text.takeWhile (· ≠ '>'), text.dropWhile (· ≠ '>') with
  | first :: others, _ :: rest =>
      if (first = '_' || Text.isLetter first) && others.all isNameCharacter then
        some (first :: others, rest)
      else
        none
  | _, _ => none

/-- The mode after flags: those before a dash are set, those after it are
cleared, and none is given twice. -/
def flagged (mode : Mode) (flags : List Char) : Option Mode :=
  let set := flags.takeWhile (· ≠ '-')
  let cleared := flags.dropWhile (· ≠ '-')
  if flags.eraseDups.length = flags.length &&
      flags.all ('-' :: Mode.flags).contains &&
      flags.getLast? ≠ some '-' then
    some (cleared.foldl (.change false) (set.foldl (.change true) mode))
  else
    none

/-- What an opening parenthesis in front of a text begins. -/
def read (mode : Mode) (text : List Char) : Option (Opening × List Char) :=
  let named (rest : List Char) : Option (Opening × List Char) :=
    (name rest).map fun (name, rest) => (.group mode (some name), rest)
  match mode.skip text with
  | '?' :: 'P' :: '<' :: rest => named rest
  | '?' :: '<' :: rest => named rest
  | '?' :: rest => do
      let inFlags := fun c => c ≠ ':' && c ≠ ')'
      let flags := rest.takeWhile inFlags
      let changed ← flagged mode flags
      match rest.dropWhile inFlags with
      | ':' :: rest => some (.group changed none, rest)
      | _ :: rest => if flags.isEmpty then none else some (.flags changed, rest)
      | [] => none
  | rest => some (.group mode none, rest)

end Opening

/-- What has been read of a pattern. -/
structure Progress where
  /-- The groups around the one that is being read, the innermost first. -/
  outer : List Group
  group : Group
  /-- The names of groups. -/
  names : List (List Char)
  /-- Whether the edge of a word of any script was asked for. -/
  wordEdge : Bool
  deriving DecidableEq, Repr

namespace Progress

def start : Progress :=
  ⟨[], .empty .standard, [], false⟩

def take (progress : Progress) (atom : Atom) : Option Progress :=
  if atom.fits progress.group.mode then
    some { progress with
      group := progress.group.add 0
      wordEdge := progress.wordEdge ||
        (atom = .wordEdge && progress.group.mode.wide) }
  else
    none

def openGroup (progress : Progress) : Opening → Option Progress
  | .flags mode =>
      some { progress with group := progress.group.changeMode mode }
  | .group mode name =>
      if name.any progress.names.contains then
        none
      else
        some { progress with
          outer := progress.group :: progress.outer
          group := .empty mode
          names := name.toList ++ progress.names }

def closeGroup (progress : Progress) : Option Progress :=
  match progress.outer with
  | [] => none
  | group :: outer =>
      some { progress with
        outer
        group := group.add (progress.group.depth + 1) }

/-- Reads what a character begins. -/
def step (progress : Progress) (c : Char) (rest : List Char) :
    Option (Progress × List Char) :=
  let group := progress.group
  match c with
  | '(' => do
      let (opening, rest) ← Opening.read group.mode rest
      return (← progress.openGroup opening, rest)
  | ')' => return (← progress.closeGroup, rest)
  | '|' => return ({ progress with group := group.addAlternative }, rest)
  | '[' => do
      let (depth, rest) ← Bracket.read group.mode rest
      return ({ progress with group := group.add depth }, rest)
  | '?' | '*' | '+' => do
      let rest := if rest.head? = some '?' then rest.drop 1 else rest
      return ({ progress with group := ← group.repeatLast }, rest)
  | '{' => none
  | '\\' => do
      let (atom, rest) ← Atom.escaped group.mode rest
      return (← progress.take atom, rest)
  | '.' => return (← progress.take .any, rest)
  | '^' | '$' => return (← progress.take .position, rest)
  | c => return (← progress.take (.character c.toNat), rest)

/-- Reads to the end.  Each round reads a character. -/
def readAll : (rounds : Nat) → Progress → List Char → Option Progress
  | 0, _, _ => none
  | rounds + 1, progress, text =>
      match progress.group.mode.skip text with
      | [] => if progress.outer.isEmpty then some progress else none
      | c :: rest => do
          let (progress, rest) ← progress.step c rest
          readAll rounds progress rest

end Progress

def check (text : List Char) : Except PatternError Unit :=
  match Progress.start.readAll (text.length + 1) text with
  | none => .error .malformed
  | some progress =>
      if depthLimit < progress.group.depth then .error .malformed
      else if progress.wordEdge then .error .wordEdge
      else .ok ()

end PackedTopology.Pattern
