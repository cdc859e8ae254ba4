import PackedTopology.Fault

/-!
# Settings

What a user can set once for all commands: how large a segmentation may be,
whether tables start with a row of names, and which messages are logged.
-/

namespace PackedTopology

/-- The settings of the commands. -/
structure Settings where
  /-- The largest vertex count that is taken from a header. -/
  maxVertices : Nat
  /-- Whether tables have a row of names. -/
  csvHeaders : Bool
  /-- The log filter, unless the environment sets one. -/
  logDirectives : String
  deriving DecidableEq, Repr

namespace Settings

def standard : Settings :=
  ⟨268435456, false, "warn,topocodec=info"⟩

def check (settings : Settings) : Except Fault Settings :=
  if settings.maxVertices = 0 then
    .error (.settings "max_vertices must be positive")
  else
    .ok settings

end Settings

end PackedTopology
