import PackedTopology.Proofs.IndexGrammar

/-!
# Writing again what was read of an index

Reading sorts the mapping, so what was read is written by vertex, whatever the
order in which it was stored.  Sorting a sorted mapping changes nothing: from
then on reading and writing give the same bytes and the same index forever.
Reading takes a mapping that repeats a vertex, though, and writing refuses it.
In the sorted mapping the entries of one vertex stand together, so the vertex
that is refused is the smallest one that repeats.
-/

namespace PackedTopology

/-- What was read, to be written by vertex. -/
def DecodedIndex.byVertex (decoded : DecodedIndex) : PersistenceIndex :=
  ⟨decoded.mappings.toList, decoded.constraints.toList⟩

namespace PersistenceIndex

/-! ## The first repeated vertex -/

/-- The first repeat is the first element that is seen already; what stands in
front of it is fresh. -/
theorem exists_front_of_firstRepeatAfter {seen : Std.TreeSet Int32}
    {vertices : List Int32} {vertex : Int32}
    (hrepeat : firstRepeatAfter seen vertices = some vertex) :
    ∃ before rest, vertices = before ++ vertex :: rest ∧ before.Nodup ∧
      (∀ other ∈ before, other ∉ seen) ∧ (vertex ∈ seen ∨ vertex ∈ before) := by
  induction vertices generalizing seen with
  | nil => cases hrepeat
  | cons first vertices ih =>
      rw [firstRepeatAfter] at hrepeat
      by_cases hseen : seen.contains first = true
      · rw [if_pos hseen] at hrepeat
        obtain rfl := Option.some.inj hrepeat
        exact ⟨[], vertices, rfl, .nil, by simp,
          .inl (Std.TreeSet.contains_iff_mem.mp hseen)⟩
      · have hfresh : first ∉ seen := fun hmem =>
          hseen (Std.TreeSet.contains_iff_mem.mpr hmem)
        rw [if_neg hseen] at hrepeat
        obtain ⟨before, rest, rfl, hnodup, hunseen, hfound⟩ := ih hrepeat
        refine ⟨first :: before, rest, rfl, ?_, ?_, ?_⟩
        · have hnot : first ∉ before := fun hmem =>
            hunseen first hmem Std.TreeSet.mem_insert_self
          exact List.nodup_cons.mpr ⟨hnot, hnodup⟩
        · intro other hother
          rcases List.mem_cons.mp hother with rfl | hother
          · exact hfresh
          · exact fun hmem =>
              hunseen other hother (Std.TreeSet.mem_insert.mpr (.inr hmem))
        · rcases hfound with hmem | hmem
          · rcases Std.TreeSet.mem_insert.mp hmem with hequal | hmem
            · obtain rfl := Std.LawfulEqCmp.eq_of_compare hequal
              exact .inr List.mem_cons_self
            · exact .inl hmem
          · exact .inr (List.mem_cons_of_mem _ hmem)

/-- In a sorted list the first repeat is the smallest element that repeats. -/
theorem firstRepeat_of_sorted {vertices : List Int32} {vertex : Int32}
    (hsorted : vertices.Pairwise fun left right => left ≤ right)
    (hrepeat : firstRepeat vertices = some vertex) :
    2 ≤ vertices.count vertex ∧
      ∀ other, 2 ≤ vertices.count other → vertex ≤ other := by
  obtain ⟨before, rest, rfl, hnodup, -, hseen | hfound⟩ :=
    exists_front_of_firstRepeatAfter hrepeat
  · exact absurd hseen Std.TreeSet.not_mem_emptyc
  constructor
  · have hbefore := List.count_pos_iff.mpr hfound
    rw [List.count_append, List.count_cons_self]
    omega
  · intro other hcount
    have hbefore := List.nodup_iff_count_le_one.mp hnodup other
    -- One of the occurrences stands behind the front, where all is larger.
    have hbehind : other ∈ vertex :: rest := by
      apply List.count_pos_iff.mp
      rw [List.count_append] at hcount
      omega
    rcases List.mem_cons.mp hbehind with rfl | hrest
    · exact Int32.le_refl _
    · have hlarger := (List.pairwise_append.mp hsorted).2.1
      exact (List.pairwise_cons.mp hlarger).1 other hrest

theorem vertices_sorted (entries : List MappingEntry) :
    ((SortedMappings.ofList entries).toList.map MappingEntry.vertex).Pairwise
      fun left right => left ≤ right :=
  List.pairwise_map.mpr (SortedMappings.toList_ofList_pairwise_le entries)

theorem step_write_of_repeat {index : PersistenceIndex}
    {counts : UInt32 × UInt32} {vertex : Int32}
    (hcounts : countFields index.mapping.length index.constraints.length =
      .ok counts)
    (hrepeat : firstRepeat (index.mapping.map MappingEntry.vertex) = some vertex)
    (writer : Writer) :
    index.write.step writer = (.error (.repeatedVertex vertex), writer) := by
  rw [write, hcounts, Action.check_ok_bind, checkVertices, hrepeat]
  rfl

/-! ## What was read -/

/-- Arranging what was read by vertex loses nothing: reading the arrangement
would give the same index.  Its lists fit their counts. -/
theorem exists_counts_of_read {bytes : List UInt8} {decoded : DecodedIndex}
    {after : Reader}
    (hread : read.step (.ofList bytes) = (.ok decoded, after)) :
    ∃ mappingCount constraintCount : UInt32,
      decoded.byVertex.mapping.length = mappingCount.toNat ∧
        decoded.byVertex.constraints.length = constraintCount.toNat ∧
        decoded = ⟨.ofList decoded.byVertex.mapping,
          .ofList decoded.byVertex.constraints, decoded.byVertex.encodedSize⟩ := by
  rcases takeLists_starts_or_stops bytes with
    ⟨index, mappingCount, constraintCount, more, hmapping, hconstraints,
      rfl⟩ | hstop
  · have hstored := consumes_read hmapping.symm hconstraints.symm more 0
    rw [← Reader.ofList_eq_holding, hread, length_storedIndex] at hstored
    obtain ⟨hdecoded, -⟩ := Prod.mk.inj hstored
    obtain rfl := Except.ok.inj hdecoded
    have hperm := SortedMappings.toList_ofList_perm index.mapping
    have hsame := Constraints.toList_ofList index.constraints
    refine ⟨mappingCount, constraintCount, hperm.length_eq.trans hmapping, ?_, ?_⟩
    · rw [DecodedIndex.byVertex, hsame, hconstraints]
    · rw [DecodedIndex.byVertex, encodedSize, hperm.length_eq, hsame,
        SortedMappings.ofList_eq_of_perm hperm]
  · exact absurd hread ((stopsIn_read (hstop 0)).ne_ok _ _)

theorem countFields_toNat (mappingCount constraintCount : UInt32) :
    countFields mappingCount.toNat constraintCount.toNat =
      .ok (mappingCount, constraintCount) := by
  rw [countFields_of_lt mappingCount.toNat_lt constraintCount.toNat_lt,
    UInt32.ofNat_toNat, UInt32.ofNat_toNat]

/-- What is read from any bytes is written by vertex in as many bytes as were
read, unless a vertex repeats; reading these bytes gives the same index, with
every bit of its values, and it is written as the same bytes again.  If a
vertex repeats, the smallest one that does is refused, and no target is
touched. -/
theorem write_of_read {bytes : List UInt8} {decoded : DecodedIndex}
    {after : Reader}
    (hread : read.step (.ofList bytes) = (.ok decoded, after)) :
    let vertices := decoded.mappings.toList.map MappingEntry.vertex
    (vertices.Nodup →
      decoded.byVertex.encodedSize = decoded.size ∧
      ∃ written again,
        written.length = decoded.size ∧
        Writer.Emits decoded.byVertex.write written decoded.size ∧
        read.step (.ofList written) = (.ok again, .holding [] again.size) ∧
        again = decoded ∧
        Writer.Emits again.byVertex.write written again.size) ∧
    (¬vertices.Nodup →
      ∃ vertex,
        2 ≤ vertices.count vertex ∧
        (∀ other, 2 ≤ vertices.count other → vertex ≤ other) ∧
        ∀ writer, decoded.byVertex.write.step writer =
          (.error (.repeatedVertex vertex), writer)) := by
  intro vertices
  obtain ⟨mappingCount, constraintCount, hmapping, hconstraints, hdecoded⟩ :=
    exists_counts_of_read hread
  have hcounts := countFields_toNat mappingCount constraintCount
  rw [← hmapping, ← hconstraints] at hcounts
  have hsize : decoded.byVertex.encodedSize = decoded.size :=
    (congrArg DecodedIndex.size hdecoded).symm
  refine ⟨?_, ?_⟩
  · intro hdistinct
    have hlength := @length_storedIndex decoded.byVertex mappingCount constraintCount
    rw [← encodedSize, hsize] at hlength
    have hemits := emits_write hcounts hdistinct
    rw [hlength] at hemits
    have hagain := consumes_read hmapping.symm hconstraints.symm [] 0
    rw [hlength, ← hsize, ← hdecoded, List.append_nil, Nat.zero_add,
      ← Reader.ofList_eq_holding, hsize] at hagain
    exact ⟨hsize, _, decoded, hlength, hemits, hagain, rfl, hemits⟩
  · intro hrepeats
    obtain ⟨vertex, hvertex⟩ : ∃ vertex, firstRepeat vertices = some vertex := by
      apply Option.ne_none_iff_exists'.mp
      intro hnone
      exact hrepeats ((firstRepeatAfter_eq_none_iff ∅ vertices).mp hnone).1
    have hmappings : decoded.mappings = .ofList decoded.byVertex.mapping :=
      congrArg DecodedIndex.mappings hdecoded
    have hsorted := vertices_sorted decoded.byVertex.mapping
    rw [← hmappings] at hsorted
    obtain ⟨hcount, hleast⟩ := firstRepeat_of_sorted hsorted hvertex
    exact ⟨vertex, hcount, hleast, step_write_of_repeat hcounts hvertex⟩

/-- Two entries that are stored against their order, one without a number, and
a mapping that repeats two vertices, the larger one first. -/
theorem write_of_read_swapped :
    (∃ decoded after written,
      read.step (.ofList
          [2, 0, 0, 0, 5, 0, 0, 0, 1, 0, 0, 0, 0, 0, 240, 127,
            254, 255, 255, 255, 0, 0, 0, 0, 0, 0, 0, 128, 0, 0, 0, 0, 9]) =
        (.ok decoded, after) ∧
      Writer.Emits decoded.byVertex.write written 32 ∧
      read.step (.ofList written) = (.ok decoded, .holding [] 32)) ∧
    ∃ decoded after,
      read.step (.ofList
          [4, 0, 0, 0, 5, 0, 0, 0, 0, 0, 0, 0, 0, 0, 0, 0,
            3, 0, 0, 0, 0, 0, 0, 0, 0, 0, 0, 0,
            5, 0, 0, 0, 0, 0, 0, 0, 0, 0, 0, 0,
            3, 0, 0, 0, 0, 0, 0, 0, 0, 0, 0, 128, 0, 0, 0, 0]) =
        (.ok decoded, after) ∧
      ∀ writer, decoded.byVertex.write.step writer =
        (.error (.repeatedVertex 3), writer) := by
  refine ⟨?_, ?_⟩
  · have hread := @consumes_read
      ⟨[⟨5, ⟨0x7ff0000000000001⟩⟩, ⟨-2, ⟨0x8000000000000000⟩⟩], []⟩ 2 0 rfl rfl [9] 0
    have hperm := (SortedMappings.toList_ofList_perm
      [⟨5, ⟨0x7ff0000000000001⟩⟩, ⟨-2, ⟨0x8000000000000000⟩⟩]).map MappingEntry.vertex
    obtain ⟨hdistinct, -⟩ := write_of_read hread
    obtain ⟨-, written, again, -, hemits, hagain, rfl, -⟩ :=
      hdistinct (hperm.nodup_iff.mpr (by decide))
    exact ⟨_, _, written, hread, hemits, hagain⟩
  · have hread := @consumes_read
      ⟨[⟨5, ⟨0⟩⟩, ⟨3, ⟨0⟩⟩, ⟨5, ⟨0⟩⟩, ⟨3, ⟨0x8000000000000000⟩⟩], []⟩ 4 0 rfl rfl [] 0
    have hperm := (SortedMappings.toList_ofList_perm
      [⟨5, ⟨0⟩⟩, ⟨3, ⟨0⟩⟩, ⟨5, ⟨0⟩⟩, ⟨3, ⟨0x8000000000000000⟩⟩]).map MappingEntry.vertex
    obtain ⟨-, hrepeats⟩ := write_of_read hread
    obtain ⟨vertex, hcount, hleast, hwrite⟩ :=
      hrepeats (hperm.nodup_iff.not.mpr (by decide))
    have hle : vertex ≤ 3 := hleast 3 ((hperm.count_eq 3).symm ▸ by decide)
    have hmem := hperm.mem_iff.mp
      (List.count_pos_iff.mp (Nat.zero_lt_of_lt hcount))
    obtain rfl | rfl : vertex = 5 ∨ vertex = 3 := by
      simpa [or_comm, or_left_comm] using hmem
    · exact absurd hle (by decide)
    · exact ⟨_, _, hread, hwrite⟩

end PersistenceIndex

end PackedTopology
