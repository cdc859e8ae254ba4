import PackedTopology.Text.Utf8

/-!
# Reading a text with its place in sight

A cursor is what is left of a text, in bytes, together with the line and the
column reached: lines count from one, and the column is the number of bytes of
the line that are already read.  A mistake is reported either where the cursor
stands or, when the next byte is to blame, just past that byte.
-/

namespace PackedTopology.Json

/-- The rest of a text and the place where it starts. -/
structure Cursor where
  rest : List UInt8
  line : Nat
  column : Nat
  deriving DecidableEq, Repr

/-- A mistake in a text, and where it was noticed. -/
structure Mistake where
  reason : String
  line : Nat
  column : Nat
  deriving DecidableEq, Repr

def Mistake.message (mistake : Mistake) : String :=
  s!"{mistake.reason} at line {mistake.line} column {mistake.column}"

/-- A reading step: it moves the cursor on, or reports a mistake. -/
abbrev Reading (α : Type) : Type :=
  StateT Cursor (Except Mistake) α

namespace Cursor

def ofText (text : String) : Cursor :=
  ⟨Text.encode text, 1, 0⟩

def advance (cursor : Cursor) : Cursor :=
  match cursor.rest with
  | [] => cursor
  | byte :: rest =>
      if byte = '\n'.toUInt8 then
        ⟨rest, cursor.line + 1, 0⟩
      else
        ⟨rest, cursor.line, cursor.column + 1⟩

def mistake (cursor : Cursor) (reason : String) : Mistake :=
  ⟨reason, cursor.line, cursor.column⟩

theorem length_advance_lt {cursor : Cursor} (h : cursor.rest ≠ []) :
    cursor.advance.rest.length < cursor.rest.length := by
  obtain ⟨rest, line, column⟩ := cursor
  cases rest with
  | nil => exact absurd rfl h
  | cons byte rest =>
      simp only [advance]
      split <;> simp

def skipWhile (holds : UInt8 → Bool) (cursor : Cursor) : Cursor :=
  match hrest : cursor.rest with
  | [] => cursor
  | byte :: _ =>
      have hshorter := @length_advance_lt cursor (by simp [hrest])
      if holds byte then cursor.advance.skipWhile holds else cursor
termination_by cursor.rest.length

end Cursor

namespace Reading

variable {α : Type}

def failHere (reason : String) : Reading α := do
  throw ((← get).mistake reason)

/-- Blames the next byte for a mistake. -/
def failNext (reason : String) : Reading α := do
  throw ((← get).advance.mistake reason)

/-- The next byte, which stays unread. -/
def peek : Reading (Option UInt8) := do
  return (← get).rest.head?

def skip : Reading Unit :=
  modify Cursor.advance

def next : Reading (Option UInt8) := do
  let byte ← peek
  skip
  return byte

def isBlank (byte : UInt8) : Bool :=
  byte = ' '.toUInt8 || byte = '\n'.toUInt8 || byte = '\t'.toUInt8 ||
    byte = '\r'.toUInt8

/-- The next byte that is not blank, which stays unread. -/
def peekToken : Reading (Option UInt8) := do
  modify (Cursor.skipWhile isBlank)
  peek

def isDigit (byte : UInt8) : Bool :=
  '0'.toUInt8 ≤ byte && byte ≤ '9'.toUInt8

def skipDigits : Reading Nat := do
  let before ← get
  let after := before.skipWhile isDigit
  set after
  return before.rest.length - after.rest.length

end Reading

end PackedTopology.Json
