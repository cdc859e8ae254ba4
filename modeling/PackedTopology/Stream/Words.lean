import PackedTopology.Stream.Reader
import PackedTopology.Stream.Writer

/-!
# Words in and out

Packed fields travel in 32-bit words.  Words go to a writer or into a plain
list of words, and come from a reader or from a cursor over a list of words.
A cursor reports offsets in bytes, like a reader of the same words would.
-/

namespace PackedTopology

/-- The types of state that take words. -/
class WordSink (σ : Type) where
  putWord : UInt32 → Action σ Unit

/-- The types of state that give words, on behalf of a region. -/
class WordSource (σ : Type) where
  nextWord : Region → Action σ UInt32

def WordSink.putWords {σ : Type} [WordSink σ] : List UInt32 → Action σ Unit
  | [] => pure ()
  | word :: words => do
      putWord word
      putWords words

instance : WordSink (Array UInt32) where
  putWord word := .of fun words => (.ok (), words.push word)

instance : WordSink Writer where
  putWord := Writer.put

instance : WordSource Reader where
  nextWord := Reader.take UInt32

/-- A list of words with a place in it. -/
structure WordCursor where
  words : Array UInt32
  position : Nat
  deriving DecidableEq, Repr

namespace WordCursor

def ofList (words : List UInt32) : WordCursor :=
  ⟨words.toArray, 0⟩

/-- The word at the cursor, which then moves past it. -/
def next (region : Region) : Action WordCursor UInt32 :=
  .of fun cursor =>
    match cursor.words[cursor.position]? with
    | some word => (.ok word, { cursor with position := cursor.position + 1 })
    | none => (.error (.incomplete region (4 * cursor.position) 4), cursor)

end WordCursor

instance : WordSource WordCursor where
  nextWord := WordCursor.next

end PackedTopology
