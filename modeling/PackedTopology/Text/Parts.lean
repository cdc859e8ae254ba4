/-!
# Parts of a text

A mark cuts a text into parts: there is one part more than there are marks,
and no part has a mark in it.
-/

namespace PackedTopology.Text

def split {α : Type} [DecidableEq α] (mark : α) : List α → List (List α)
  | [] => [[]]
  | element :: elements =>
      if element = mark then
        [] :: split mark elements
      else
        match split mark elements with
        | [] => [[element]]
        | part :: parts => (element :: part) :: parts

def parts (mark : Char) (text : String) : List String :=
  (split mark text.toList).map String.ofList

def beginsWith (text start : String) : Bool :=
  start.toList.isPrefixOf text.toList

end PackedTopology.Text
