import PackedTopology.Log.Directive

/-!
# Filters on log messages

A filter is a list of directives.  Of those that apply to a message, the one
with the longest target decides, and of two with the same target and numbers
the later one.  Where none applies nothing is logged.
-/

namespace PackedTopology

/-- The directives that apply to messages. -/
structure LogFilter where
  directives : List Directive
  deriving DecidableEq, Repr

namespace LogFilter

def parts (text : String) : List String :=
  (Text.parts ',' text).filter fun part => !part.isEmpty

/-- The filter of a list of directives, all of which have to be well formed. -/
def ofText? (text : String) : Option LogFilter :=
  ((parts text).mapM fun part => (Directive.ofText part).toOption).map .mk

/-- The filter of the directives in a list that are well formed, and a
complaint about each of the others. -/
def ofTextLossy (text : String) : LogFilter × List String :=
  let results := (parts text).map fun part => (part, Directive.ofText part)
  (⟨results.filterMap fun result => result.2.toOption⟩,
    results.filterMap fun (part, result) =>
      match result with
      | .ok _ => none
      | .error error => some s!"ignoring \x60{part}\x60: {error.message}")

/-- Of two directives the one that comes first, or else the later one. -/
def preferred (best : Option Directive) (directive : Directive) :
    Option Directive :=
  match best with
  | none => some directive
  | some other =>
      if other.precedes directive then some other else some directive

/-- The directive that decides about a message. -/
def deciding (filter : LogFilter) (message : LogMessage) : Option Directive :=
  (filter.directives.filter fun directive =>
    directive.appliesTo message).foldl preferred none

def admits (filter : LogFilter) (message : LogMessage) : Bool :=
  match filter.deciding message with
  | none => false
  | some directive => message.level.rank ≤ directive.level.rank

end LogFilter

end PackedTopology
