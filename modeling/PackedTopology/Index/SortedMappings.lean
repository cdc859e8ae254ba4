import PackedTopology.Index.Entry

/-!
# Sorted mappings

The entries of a mapping are stored once, ordered by vertex.  Beside them
stands the list of their places in the order of their values, so that both
orders can be walked.  A vertex is found by halving the stretch of entries it
can be in.
-/

namespace PackedTopology

/-- Mapping entries by vertex, with their places by value. -/
structure SortedMappings where
  byVertex : Array MappingEntry
  places : List (Fin byVertex.size)

namespace SortedMappings

/-- The places of an array in the order of the values there. -/
def placesByValue (entries : Array MappingEntry) : List (Fin entries.size) :=
  (List.finRange entries.size).mergeSort fun left right =>
    entries[left].valueOrder entries[right]

def ofList (entries : List MappingEntry) : SortedMappings :=
  let byVertex := (entries.mergeSort MappingEntry.vertexOrder).toArray
  ⟨byVertex, placesByValue byVertex⟩

def toList (mappings : SortedMappings) : List MappingEntry :=
  mappings.byVertex.toList

def byValue (mappings : SortedMappings) : List MappingEntry :=
  mappings.places.map fun place => mappings.byVertex[place]

/-- The entries by value, as a table of their own. -/
def toValueSorted (mappings : SortedMappings) : Array MappingEntry :=
  mappings.byValue.toArray

def size (mappings : SortedMappings) : Nat :=
  mappings.byVertex.size

def isEmpty (mappings : SortedMappings) : Bool :=
  mappings.byVertex.isEmpty

/-- Looks for a vertex among the entries from `first` up to `last`. -/
def searchBetween (entries : Array MappingEntry) (vertex : Int32)
    (first last : Nat) (hlast : last ≤ entries.size) : Option Scalar :=
  if hstretch : first < last then
    let middle := first + (last - first) / 2
    have hmiddle : middle < last := by omega
    let entry := entries[middle]
    if entry.vertex = vertex then
      some entry.value
    else if entry.vertex < vertex then
      searchBetween entries vertex (middle + 1) last hlast
    else
      searchBetween entries vertex first middle (by omega)
  else
    none
termination_by last - first
decreasing_by
  all_goals omega

def valueOf (mappings : SortedMappings) (vertex : Int32) : Option Scalar :=
  searchBetween mappings.byVertex vertex 0 mappings.byVertex.size
    (Nat.le_refl _)

end SortedMappings

end PackedTopology
