import Mathlib.Data.List.Nodup
import PackedTopology.Index.SortedMappings

/-!
# The order of sorted mappings

Both orders of entries are total and transitive, and no two entries are the
same to the order by vertex unless all their bits agree.  Sorting a list of
entries therefore arranges all of them, each as often as it was given, and in
one way only: the order in which they were given leaves no trace.  Entries of
different vertices are in the order of their vertices alone.
-/

namespace PackedTopology

namespace MappingEntry

theorem vertexOrder_iff {left right : MappingEntry} :
    left.vertexOrder right = true ↔
      left.vertex.toInt < right.vertex.toInt ∨
        left.vertex.toInt = right.vertex.toInt ∧
          left.value.rank ≤ right.value.rank := by
  simp [vertexOrder, Int32.lt_iff_toInt_lt, Int32.toInt_inj]

theorem vertexOrder_trans (first second third : MappingEntry)
    (hleft : first.vertexOrder second = true)
    (hright : second.vertexOrder third = true) :
    first.vertexOrder third = true := by
  rw [vertexOrder_iff] at hleft hright ⊢
  omega

theorem vertexOrder_total (left right : MappingEntry) :
    (left.vertexOrder right || right.vertexOrder left) = true := by
  rw [Bool.or_eq_true, vertexOrder_iff, vertexOrder_iff]
  omega

theorem eq_of_toInt_of_rank {left right : MappingEntry}
    (hvertex : left.vertex.toInt = right.vertex.toInt)
    (hrank : left.value.rank = right.value.rank) : left = right := by
  have hsame : left.vertex = right.vertex := Int32.toInt_inj.mp hvertex
  have hvalue : left.value = right.value := Scalar.rank_injective hrank
  cases left
  cases right
  simp_all

theorem vertexOrder_antisymm {left right : MappingEntry}
    (hleft : left.vertexOrder right = true)
    (hright : right.vertexOrder left = true) :
    left = right := by
  rw [vertexOrder_iff] at hleft hright
  exact eq_of_toInt_of_rank (by omega) (by omega)

theorem valueOrder_iff {left right : MappingEntry} :
    left.valueOrder right = true ↔
      left.value.rank < right.value.rank ∨
        left.value.rank = right.value.rank ∧
          left.vertex.toInt ≤ right.vertex.toInt := by
  simp [valueOrder, Int32.le_iff_toInt_le]

theorem valueOrder_trans (first second third : MappingEntry)
    (hleft : first.valueOrder second = true)
    (hright : second.valueOrder third = true) :
    first.valueOrder third = true := by
  rw [valueOrder_iff] at hleft hright ⊢
  omega

theorem valueOrder_total (left right : MappingEntry) :
    (left.valueOrder right || right.valueOrder left) = true := by
  rw [Bool.or_eq_true, valueOrder_iff, valueOrder_iff]
  omega

theorem valueOrder_antisymm {left right : MappingEntry}
    (hleft : left.valueOrder right = true)
    (hright : right.valueOrder left = true) :
    left = right := by
  rw [valueOrder_iff] at hleft hright
  exact eq_of_toInt_of_rank (by omega) (by omega)

end MappingEntry

namespace SortedMappings

theorem toList_ofList (entries : List MappingEntry) :
    (ofList entries).toList = entries.mergeSort MappingEntry.vertexOrder :=
  rfl

theorem toList_ofList_perm (entries : List MappingEntry) :
    (ofList entries).toList.Perm entries :=
  List.mergeSort_perm entries _

theorem toList_ofList_pairwise (entries : List MappingEntry) :
    (ofList entries).toList.Pairwise fun left right =>
      left.vertexOrder right = true :=
  List.pairwise_mergeSort MappingEntry.vertexOrder_trans
    MappingEntry.vertexOrder_total entries

theorem toList_ofList_pairwise_le (entries : List MappingEntry) :
    (ofList entries).toList.Pairwise fun left right =>
      left.vertex ≤ right.vertex := by
  apply (toList_ofList_pairwise entries).imp
  intro left right horder
  rw [MappingEntry.vertexOrder_iff] at horder
  rw [Int32.le_iff_toInt_le]
  omega

/-- Entries of different vertices come in the order of their vertices. -/
theorem toList_ofList_pairwise_lt {entries : List MappingEntry}
    (hdistinct : (entries.map MappingEntry.vertex).Nodup) :
    (ofList entries).toList.Pairwise fun left right =>
      left.vertex < right.vertex := by
  have hperm := (toList_ofList_perm entries).map MappingEntry.vertex
  have hdifferent : (ofList entries).toList.Pairwise fun left right =>
      left.vertex ≠ right.vertex :=
    List.pairwise_map.mp (hperm.nodup_iff.mpr hdistinct)
  have hboth := (toList_ofList_pairwise entries).and hdifferent
  refine hboth.imp ?_
  intro left right hpair
  obtain ⟨horder, hvertices⟩ := hpair
  rw [MappingEntry.vertexOrder_iff] at horder
  rw [Int32.lt_iff_toInt_lt]
  rw [Ne, ← Int32.toInt_inj] at hvertices
  omega

theorem toList_ofList_of_pairwise_lt {entries : List MappingEntry}
    (hsorted : entries.Pairwise fun left right => left.vertex < right.vertex) :
    (ofList entries).toList = entries := by
  refine List.mergeSort_of_pairwise (hsorted.imp ?_)
  intro left right hlt
  exact MappingEntry.vertexOrder_iff.mpr (.inl (Int32.lt_iff_toInt_lt.mp hlt))

/-! ## The order by value -/

theorem placesByValue_perm (entries : Array MappingEntry) :
    (placesByValue entries).Perm (List.finRange entries.size) :=
  List.mergeSort_perm _ _

theorem places_ofList_perm (entries : List MappingEntry) :
    ((ofList entries).places.map Fin.val).Perm (List.range entries.length) := by
  have hplaces := (placesByValue_perm (ofList entries).byVertex).map Fin.val
  have hsize : (ofList entries).byVertex.size = entries.length := by
    simp [ofList]
  rw [List.map_coe_finRange_eq_range] at hplaces
  rw [← hsize]
  exact hplaces

theorem byValue_ofList_perm (entries : List MappingEntry) :
    (ofList entries).byValue.Perm entries := by
  have hplaces := placesByValue_perm (ofList entries).byVertex
  have hvisited := hplaces.map fun place => (ofList entries).byVertex[place]
  have hall : (List.finRange (ofList entries).byVertex.size).map
      (fun place => (ofList entries).byVertex[place]) =
        (ofList entries).toList := by
    apply List.ext_getElem
    · simp [toList]
    · intro place _ _
      simp [toList]
  rw [hall] at hvisited
  exact hvisited.trans (toList_ofList_perm entries)

theorem byValue_ofList_pairwise (entries : List MappingEntry) :
    (ofList entries).byValue.Pairwise fun left right =>
      left.valueOrder right = true := by
  apply List.pairwise_map.mpr
  apply List.pairwise_mergeSort
  · intro first second third
    exact MappingEntry.valueOrder_trans _ _ _
  · intro left right
    exact MappingEntry.valueOrder_total _ _

/-! ## One form for every arrangement -/

theorem mergeSort_eq_of_perm {left right : List MappingEntry}
    (hperm : left.Perm right) :
    left.mergeSort MappingEntry.vertexOrder =
      right.mergeSort MappingEntry.vertexOrder := by
  apply List.Perm.eq_of_pairwise
  · intro first second _ _ hle hge
    exact MappingEntry.vertexOrder_antisymm hle hge
  · exact toList_ofList_pairwise left
  · exact toList_ofList_pairwise right
  · exact ((toList_ofList_perm left).trans hperm).trans
      (toList_ofList_perm right).symm

/-- Entries in the order of their values are walked as they are. -/
theorem byValue_ofList_eq_of_perm {entries arranged : List MappingEntry}
    (hperm : arranged.Perm entries)
    (horder : arranged.Pairwise fun left right => left.valueOrder right = true) :
    (ofList entries).byValue = arranged := by
  apply List.Perm.eq_of_pairwise
  · intro first second _ _ hle hge
    exact MappingEntry.valueOrder_antisymm hle hge
  · exact byValue_ofList_pairwise entries
  · exact horder
  · exact (byValue_ofList_perm entries).trans hperm.symm

theorem ofList_eq_of_perm {left right : List MappingEntry}
    (hperm : left.Perm right) :
    ofList left = ofList right := by
  unfold ofList
  rw [mergeSort_eq_of_perm hperm]

end SortedMappings

end PackedTopology
