import PackedTopology.Proofs.IndexGrammar

/-!
# The canonical form of an index

What is read back of a mapping is determined by its entries and says nothing
about the order in which they were written.  Two arrangements of one mapping
are accepted together, take the same bytes in number, and are read back as the
same index.
-/

namespace PackedTopology

namespace PersistenceIndex

theorem step_write_read {index : PersistenceIndex}
    {mappingCount constraintCount : UInt32}
    (hcounts : countFields index.mapping.length index.constraints.length =
      .ok (mappingCount, constraintCount))
    (hdistinct : (index.mapping.map MappingEntry.vertex).Nodup) :
    ∃ writer,
      index.write.step (.empty .unbounded) =
          (.ok (recordSize index.mapping.length index.constraints.length),
            writer) ∧
        (read.step (.ofList writer.content)).1 =
          .ok ⟨.ofList index.mapping, .ofList index.constraints,
            recordSize index.mapping.length index.constraints.length⟩ := by
  obtain ⟨hmapping, hconstraints⟩ := countFields_eq_ok hcounts
  have hwrite := emits_write hcounts hdistinct (.empty .unbounded) rfl
  have hread := consumes_read hmapping hconstraints [] 0
  rw [length_storedIndex] at hwrite
  rw [List.append_nil, length_storedIndex] at hread
  refine ⟨_, hwrite, ?_⟩
  rw [Writer.content_after, Writer.content_empty, List.nil_append,
    Reader.ofList_eq_holding, hread]

theorem write_read_of_perm {entries arranged : List MappingEntry}
    {constraints : List Constraint} {reported : ℕ} {writer : Writer}
    (hperm : arranged.Perm entries)
    (hwrite : (write ⟨entries, constraints⟩).step (.empty .unbounded) =
      (.ok reported, writer)) :
    ∃ other decoded,
      (write ⟨arranged, constraints⟩).step (.empty .unbounded) =
          (.ok reported, other) ∧
        (read.step (.ofList writer.content)).1 = .ok decoded ∧
        (read.step (.ofList other.content)).1 = .ok decoded ∧
        decoded.mappings = .ofList entries := by
  obtain ⟨mappingCount, constraintCount, hcounts, hdistinct⟩ :=
    exists_countFields_of_step_write (congrArg Prod.fst hwrite)
  have harranged : countFields arranged.length constraints.length =
      .ok (mappingCount, constraintCount) := by
    rw [hperm.length_eq]
    exact hcounts
  -- The vertices are distinct in any arrangement, so both are accepted.
  have hnodup : (arranged.map MappingEntry.vertex).Nodup :=
    ((hperm.map MappingEntry.vertex).nodup_iff).mpr hdistinct
  obtain ⟨given, hgiven, hread⟩ := step_write_read hcounts hdistinct
  obtain ⟨other, hother, hreadOther⟩ :=
    @step_write_read ⟨arranged, constraints⟩ _ _ harranged hnodup
  simp only [hperm.length_eq] at hother hreadOther
  rw [SortedMappings.ofList_eq_of_perm hperm] at hreadOther
  rw [hwrite] at hgiven
  obtain ⟨hreported, rfl⟩ := Prod.mk.inj hgiven
  rw [hreported]
  exact ⟨other, _, hother, hread, hreadOther, rfl⟩

end PersistenceIndex

namespace SortedMappings

/-- Sorting a list of entries puts them into a canonical form: both walks go
through all of them in their order, the second one by places each of which
comes up once.  Any arrangement of the same entries gives the same form, so an
index that is written and read back does not tell how its mapping was
arranged. -/
theorem canonical_form (entries : List MappingEntry) :
    (ofList entries).toList.Perm entries ∧
    ((ofList entries).toList.Pairwise fun left right =>
      left.vertex < right.vertex ∨
        left.vertex = right.vertex ∧ left.value.rank ≤ right.value.rank) ∧
    ((ofList entries).places.map Fin.val).Perm (List.range entries.length) ∧
    (ofList entries).byValue.Perm entries ∧
    ((ofList entries).byValue.Pairwise fun left right =>
      left.value.rank < right.value.rank ∨
        left.value.rank = right.value.rank ∧ left.vertex ≤ right.vertex) ∧
    (ofList entries).toValueSorted.toList = (ofList entries).byValue ∧
    ∀ arranged : List MappingEntry, arranged.Perm entries →
      ofList arranged = ofList entries ∧
      ∀ (constraints : List Constraint) (reported : ℕ) (writer : Writer),
        (PersistenceIndex.write ⟨entries, constraints⟩).step
            (.empty .unbounded) = (.ok reported, writer) →
        ∃ other decoded,
          (PersistenceIndex.write ⟨arranged, constraints⟩).step
              (.empty .unbounded) = (.ok reported, other) ∧
            (PersistenceIndex.read.step (.ofList writer.content)).1 =
              .ok decoded ∧
            (PersistenceIndex.read.step (.ofList other.content)).1 =
              .ok decoded ∧
            decoded.mappings = ofList entries := by
  refine ⟨toList_ofList_perm entries, ?_, places_ofList_perm entries,
    byValue_ofList_perm entries, ?_, ?_, ?_⟩
  · apply (toList_ofList_pairwise entries).imp
    intro left right horder
    rwa [MappingEntry.vertexOrder_iff, ← Int32.lt_iff_toInt_lt,
      Int32.toInt_inj] at horder
  · apply (byValue_ofList_pairwise entries).imp
    intro left right horder
    rwa [MappingEntry.valueOrder_iff, ← Int32.le_iff_toInt_le] at horder
  · simp [toValueSorted]
  · intro arranged hperm
    refine ⟨ofList_eq_of_perm hperm, ?_⟩
    intro constraints reported writer hwrite
    exact PersistenceIndex.write_read_of_perm hperm hwrite

/-- Two entries in either order, one of them without a number. -/
theorem canonical_form_swapped :
    ∃ writer other decoded,
      (PersistenceIndex.write
          ⟨[⟨5, ⟨0x7ff0000000000001⟩⟩, ⟨-2, ⟨0⟩⟩], []⟩).step
            (.empty .unbounded) = (.ok 32, writer) ∧
        (PersistenceIndex.write
          ⟨[⟨-2, ⟨0⟩⟩, ⟨5, ⟨0x7ff0000000000001⟩⟩], []⟩).step
            (.empty .unbounded) = (.ok 32, other) ∧
        (PersistenceIndex.read.step (.ofList writer.content)).1 = .ok decoded ∧
        (PersistenceIndex.read.step (.ofList other.content)).1 = .ok decoded := by
  have hreported : ((PersistenceIndex.write
      ⟨[⟨5, ⟨0x7ff0000000000001⟩⟩, ⟨-2, ⟨0⟩⟩], []⟩).step
        (.empty .unbounded)).1 = .ok 32 := by decide
  obtain ⟨-, -, -, -, -, -, hperm⟩ :=
    canonical_form [⟨5, ⟨0x7ff0000000000001⟩⟩, ⟨-2, ⟨0⟩⟩]
  obtain ⟨-, hread⟩ := hperm [⟨-2, ⟨0⟩⟩, ⟨5, ⟨0x7ff0000000000001⟩⟩]
    (.swap _ _ [])
  obtain ⟨other, decoded, hother, hwriter, hreadOther, -⟩ :=
    hread [] 32 _ (Prod.ext hreported rfl)
  exact ⟨_, other, decoded, Prod.ext hreported rfl, hother, hwriter, hreadOther⟩

end SortedMappings

end PackedTopology
