import PackedTopology.Proofs.SortedMappings

/-!
# Looking up a vertex

The search halves the stretch of entries in which a vertex can stand.  What it
returns is the value of an entry of that vertex, whether or not the entries are
in order.  That it returns one if there is one rests on the order: an entry
below the vertex leaves only the entries behind it, one above it only those in
front of it, so a place where the vertex stands is never given up.  Sorting
arranges entries by vertex first, so the search finds every vertex of a sorted
mapping, and no other.
-/

namespace PackedTopology.SortedMappings

theorem vertex_le_of_le {entries : Array MappingEntry}
    (hsorted : entries.toList.Pairwise fun left right =>
      left.vertex ≤ right.vertex)
    {left right : ℕ} (hle : left ≤ right) (hright : right < entries.size) :
    entries[left].vertex ≤ entries[right].vertex := by
  rcases Nat.lt_or_eq_of_le hle with hlt | rfl
  · exact List.pairwise_iff_getElem.mp hsorted left right
      (Nat.lt_trans hlt hright) hright hlt
  · exact Int32.le_refl _

variable {entries : Array MappingEntry} {vertex : Int32} {first last : ℕ}
  {hlast : last ≤ entries.size}

/-- What is found was recorded for the vertex, in whatever order the entries
are. -/
theorem mem_of_searchBetween {value : Scalar}
    (hfound : searchBetween entries vertex first last hlast = some value) :
    ⟨vertex, value⟩ ∈ entries := by
  fun_induction searchBetween entries vertex first last hlast with
  | case1 first last hlast hstretch middle hmiddle entry hvertex =>
      have hentry : entry = ⟨vertex, value⟩ := by
        rw [← hvertex, ← Option.some.inj hfound]
      rw [← hentry]
      exact Array.getElem_mem _
  | case2 first last hlast hstretch middle hmiddle entry hvertex hbelow ih =>
      exact ih hfound
  | case3 first last hlast hstretch middle hmiddle entry hvertex habove ih =>
      exact ih hfound
  | case4 first last hlast hstretch => cases hfound

/-- The stretch always keeps a place where the vertex stands. -/
theorem searchBetween_ne_none
    (hsorted : entries.toList.Pairwise fun left right =>
      left.vertex ≤ right.vertex)
    {place : ℕ} (hplace : place < entries.size)
    (hvertex : entries[place].vertex = vertex) (hfirst : first ≤ place)
    (hbefore : place < last) :
    searchBetween entries vertex first last hlast ≠ none := by
  fun_induction searchBetween entries vertex first last hlast with
  | case1 first last hlast hstretch middle hmiddle entry hhere => simp
  | case2 first last hlast hstretch middle hmiddle entry hhere hbelow ih =>
      -- Nothing up to the middle reaches the vertex.
      have hbehind : middle < place := by
        by_contra hnot
        have hle := vertex_le_of_le hsorted (Nat.le_of_not_lt hnot)
          (Nat.lt_of_lt_of_le hmiddle hlast)
        rw [hvertex] at hle
        exact Int32.not_lt.mpr hle hbelow
      exact ih hbehind hbefore
  | case3 first last hlast hstretch middle hmiddle entry hhere hnotBelow ih =>
      -- The middle is above the vertex, and so is all that comes behind it.
      have hfront : place < middle := by
        by_contra hnot
        have hle := vertex_le_of_le hsorted (Nat.le_of_not_lt hnot) hplace
        rw [hvertex] at hle
        exact hhere (Int32.le_antisymm hle (Int32.not_lt.mp hnotBelow))
      exact ih hfirst hfront
  | case4 first last hlast hstretch => omega

/-! ## Sorted mappings -/

theorem mem_of_valueOf {entries : List MappingEntry} {vertex : Int32}
    {value : Scalar} (hfound : (ofList entries).valueOf vertex = some value) :
    ⟨vertex, value⟩ ∈ entries := by
  have hmem := Array.mem_toList_iff.mpr (mem_of_searchBetween hfound)
  exact (toList_ofList_perm entries).mem_iff.mp hmem

theorem exists_valueOf {entries : List MappingEntry} {entry : MappingEntry}
    (hentry : entry ∈ entries) :
    ∃ value, (ofList entries).valueOf entry.vertex = some value := by
  have hmem : entry ∈ (ofList entries).toList :=
    (toList_ofList_perm entries).mem_iff.mpr hentry
  obtain ⟨place, hplace, hget⟩ := List.mem_iff_getElem.mp hmem
  apply Option.ne_none_iff_exists'.mp
  exact searchBetween_ne_none (toList_ofList_pairwise_le entries) hplace
    (congrArg MappingEntry.vertex hget) (Nat.zero_le place) hplace

/-- A vertex has a value in a sorted mapping if and only if it was among the
entries that were sorted, in whatever order they came.  The value is, with every
bit, that of one of its entries; for a vertex with one entry, it is the value
that was recorded there. -/
theorem valueOf_ofList (entries : List MappingEntry) (vertex : Int32) :
    ((∃ value, (ofList entries).valueOf vertex = some value) ↔
      vertex ∈ entries.map MappingEntry.vertex) ∧
    (∀ value, (ofList entries).valueOf vertex = some value →
      ⟨vertex, value⟩ ∈ entries) ∧
    (∀ entry, entries.filter (fun other => other.vertex = vertex) = [entry] →
      (ofList entries).valueOf vertex = some entry.value) := by
  refine ⟨?_, fun value hfound => mem_of_valueOf hfound, ?_⟩
  · constructor
    · rintro ⟨value, hfound⟩
      exact List.mem_map.mpr ⟨_, mem_of_valueOf hfound, rfl⟩
    · intro hvertex
      obtain ⟨entry, hentry, rfl⟩ := List.mem_map.mp hvertex
      exact exists_valueOf hentry
  · intro entry honce
    have hentry : entry ∈ entries.filter fun other => other.vertex = vertex := by
      simp [honce]
    obtain ⟨hmem, hvertex⟩ := List.mem_filter.mp hentry
    obtain ⟨value, hfound⟩ := exists_valueOf hmem
    rw [of_decide_eq_true hvertex] at hfound
    -- The entry that was found is one of the vertex, and there is only one.
    have hother : ⟨vertex, value⟩ ∈ entries.filter
        fun other => other.vertex = vertex :=
      List.mem_filter.mpr ⟨mem_of_valueOf hfound, by simp⟩
    rw [honce, List.mem_singleton] at hother
    rw [hfound, ← hother]

/-- Four entries out of order: a negative vertex without a number, found by its
bits, a vertex with two entries and an absent one between them. -/
theorem valueOf_ofList_unsorted :
    let entries : List MappingEntry :=
      [⟨5, ⟨0x3ff0000000000000⟩⟩, ⟨-3, ⟨0x7ff0000000000001⟩⟩,
        ⟨5, ⟨0x8000000000000000⟩⟩, ⟨2147483647, ⟨0⟩⟩]
    (ofList entries).valueOf (-3) = some ⟨0x7ff0000000000001⟩ ∧
      (∃ value, (ofList entries).valueOf 5 = some value ∧
        ⟨5, value⟩ ∈ entries) ∧
      (ofList entries).valueOf 4 = none := by
  intro entries
  obtain ⟨-, -, honce⟩ := valueOf_ofList entries (-3)
  obtain ⟨hfive, hrecorded, -⟩ := valueOf_ofList entries 5
  obtain ⟨hfour, -, -⟩ := valueOf_ofList entries 4
  refine ⟨honce ⟨-3, ⟨0x7ff0000000000001⟩⟩ (by decide), ?_, ?_⟩
  · obtain ⟨value, hfound⟩ := hfive.mpr (by decide)
    exact ⟨value, hfound, hrecorded value hfound⟩
  · apply Option.eq_none_iff_forall_ne_some.mpr
    intro value hfound
    exact absurd (hfour.mp ⟨value, hfound⟩) (by decide)

end PackedTopology.SortedMappings
