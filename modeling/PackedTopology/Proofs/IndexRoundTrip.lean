import PackedTopology.Index.Record
import PackedTopology.Proofs.SegmentationRoundTrip
import PackedTopology.Proofs.SortedMappings

/-!
# Indices through a stream

Writing an accepted index emits its counts, its entries and its constraints as
they are given, and reading consumes just that.  No vertex of an accepted
mapping repeats, so what is read back holds the entries in the order of their
vertices; the constraints stay as they were.
-/

namespace PackedTopology

theorem Constraints.toList_ofList (constraints : List Constraint) :
    (ofList constraints).toList = constraints := by
  induction constraints using List.reverseRecOn with
  | nil => rfl
  | append_singleton constraints constraint ih =>
      rw [ofList, List.foldl_concat, ← ofList, toList_push, ih]

namespace PersistenceIndex

/-! ## Repeated vertices -/

theorem firstRepeatAfter_eq_none_iff (seen : Std.TreeSet Int32)
    (vertices : List Int32) :
    firstRepeatAfter seen vertices = none ↔
      vertices.Nodup ∧ ∀ vertex ∈ vertices, vertex ∉ seen := by
  induction vertices generalizing seen with
  | nil => simp [firstRepeatAfter]
  | cons vertex vertices ih =>
      rw [firstRepeatAfter]
      by_cases hseen : seen.contains vertex = true
      · have hmem : vertex ∈ seen := Std.TreeSet.contains_iff_mem.mp hseen
        simp [hseen, hmem]
      · have hfresh : vertex ∉ seen := fun hmem =>
          hseen (Std.TreeSet.contains_iff_mem.mpr hmem)
        rw [if_neg hseen, ih, List.nodup_cons]
        constructor
        · rintro ⟨hnodup, hunseen⟩
          have hnot : vertex ∉ vertices := fun hmem =>
            hunseen vertex hmem Std.TreeSet.mem_insert_self
          refine ⟨⟨hnot, hnodup⟩, ?_⟩
          intro other hother
          rcases List.mem_cons.mp hother with rfl | hother
          · exact hfresh
          · exact fun hmem =>
              hunseen other hother (Std.TreeSet.mem_insert.mpr (.inr hmem))
        · rintro ⟨⟨hnot, hnodup⟩, hunseen⟩
          refine ⟨hnodup, ?_⟩
          intro other hother hinsert
          rcases Std.TreeSet.mem_insert.mp hinsert with hequal | hmem
          · exact hnot (Std.LawfulEqCmp.eq_of_compare hequal ▸ hother)
          · exact hunseen other (List.mem_cons_of_mem _ hother) hmem

theorem checkVertices_eq_ok_iff {mapping : List MappingEntry} :
    checkVertices mapping = .ok () ↔
      (mapping.map MappingEntry.vertex).Nodup := by
  have hnone := firstRepeatAfter_eq_none_iff ∅
    (mapping.map MappingEntry.vertex)
  have hseen : ∀ vertex ∈ mapping.map MappingEntry.vertex,
      vertex ∉ (∅ : Std.TreeSet Int32) :=
    fun vertex _ => Std.TreeSet.not_mem_emptyc
  rw [and_iff_left hseen] at hnone
  rw [← hnone, checkVertices, firstRepeat]
  cases firstRepeatAfter ∅ (mapping.map MappingEntry.vertex) with
  | none => simp
  | some vertex => simp

/-! ## Stored forms -/

/-- The stored form of a mapping entry. -/
def storedEntry (entry : MappingEntry) : List UInt8 :=
  Field.bytes entry.vertex ++ Field.bytes entry.value

/-- The stored form of a constraint. -/
def storedConstraint (constraint : Constraint) : List UInt8 :=
  Field.bytes constraint.vertex ++
    (Field.bytes constraint.value ++ Field.bytes constraint.kind)

theorem emits_entry (entry : MappingEntry) :
    Writer.Emits (putEntry entry) (storedEntry entry) () :=
  (Writer.emits_put entry.vertex).bind (Writer.emits_put entry.value)

theorem consumes_entry (entry : MappingEntry) :
    Reader.Consumes takeEntry (storedEntry entry) entry :=
  (Reader.consumes_take _ entry.vertex).bind
    (Reader.consumes_take _ entry.value).bind_pure

theorem emits_constraint (constraint : Constraint) :
    Writer.Emits (putConstraint constraint) (storedConstraint constraint) () :=
  (Writer.emits_put constraint.vertex).bind
    ((Writer.emits_put constraint.value).bind
      (Writer.emits_put constraint.kind))

theorem consumes_constraint (constraint : Constraint) :
    Reader.Consumes takeConstraint (storedConstraint constraint) constraint :=
  (Reader.consumes_take _ constraint.vertex).bind
    ((Reader.consumes_take _ constraint.value).bind
      (Reader.consumes_take _ constraint.kind).bind_pure)

/-- The stored form of an index, given the fields of its two counts. -/
def storedIndex (mappingCount constraintCount : UInt32)
    (index : PersistenceIndex) : List UInt8 :=
  Field.bytes mappingCount ++ (index.mapping.flatMap storedEntry ++
    (Field.bytes constraintCount ++
      index.constraints.flatMap storedConstraint))

variable {index : PersistenceIndex} {mappingCount constraintCount : UInt32}

theorem emits_write
    (hcounts : countFields index.mapping.length index.constraints.length =
      .ok (mappingCount, constraintCount))
    (hdistinct : (index.mapping.map MappingEntry.vertex).Nodup) :
    Writer.Emits index.write (storedIndex mappingCount constraintCount index)
      (storedIndex mappingCount constraintCount index).length := by
  have hcheck := checkVertices_eq_ok_iff.mpr hdistinct
  rw [write, hcounts, Action.check_ok_bind, hcheck]
  exact Writer.Emits.measured
    ((Writer.emits_put mappingCount).bind
      ((Writer.emits_forM emits_entry index.mapping).bind
        ((Writer.emits_put constraintCount).bind
          (Writer.emits_forM emits_constraint index.constraints))))

theorem consumes_takeLists
    (hmapping : mappingCount.toNat = index.mapping.length)
    (hconstraints : constraintCount.toNat = index.constraints.length) :
    Reader.Consumes takeLists (storedIndex mappingCount constraintCount index)
      (index.mapping, index.constraints) := by
  refine (Reader.consumes_take _ mappingCount).bind ?_
  rw [hmapping]
  refine (Reader.consumes_times consumes_entry index.mapping).bind ?_
  refine (Reader.consumes_take _ constraintCount).bind ?_
  rw [hconstraints]
  exact
    (Reader.consumes_times consumes_constraint index.constraints).bind_pure

theorem consumes_read
    (hmapping : mappingCount.toNat = index.mapping.length)
    (hconstraints : constraintCount.toNat = index.constraints.length) :
    Reader.Consumes read (storedIndex mappingCount constraintCount index)
      ⟨.ofList index.mapping, .ofList index.constraints,
        (storedIndex mappingCount constraintCount index).length⟩ :=
  (consumes_takeLists hmapping hconstraints).measured.bind_pure

theorem countFields_of_lt {mapping constraints : ℕ}
    (hmapping : mapping < 2 ^ 32) (hconstraints : constraints < 2 ^ 32) :
    countFields mapping constraints =
      .ok (.ofNat mapping, .ofNat constraints) := by
  rw [countFields, Segmentation.countField_of_lt hmapping,
    Segmentation.countField_of_lt hconstraints]
  rfl

theorem countFields_of_mapping_le {mapping constraints : ℕ}
    (hmapping : 2 ^ 32 ≤ mapping) :
    countFields mapping constraints =
      .error (.countOverflow .mappingCount mapping) := by
  rw [countFields, Segmentation.countField_of_le hmapping]
  rfl

theorem countFields_of_constraints_le {mapping constraints : ℕ}
    (hmapping : mapping < 2 ^ 32) (hconstraints : 2 ^ 32 ≤ constraints) :
    countFields mapping constraints =
      .error (.countOverflow .constraintCount constraints) := by
  rw [countFields, Segmentation.countField_of_lt hmapping,
    Segmentation.countField_of_le hconstraints]
  rfl

theorem countFields_eq_ok {mapping constraints : ℕ}
    (hcounts : countFields mapping constraints =
      .ok (mappingCount, constraintCount)) :
    mappingCount.toNat = mapping ∧ constraintCount.toNat = constraints := by
  unfold countFields at hcounts
  cases hmapping : Segmentation.countField .mappingCount mapping with
  | error fault =>
      rw [hmapping] at hcounts
      cases hcounts
  | ok first =>
      cases hconstraints :
          Segmentation.countField .constraintCount constraints with
      | error fault =>
          rw [hmapping, hconstraints] at hcounts
          cases hcounts
      | ok second =>
          rw [hmapping, hconstraints] at hcounts
          cases hcounts
          exact ⟨Segmentation.countField_eq_ok hmapping,
            Segmentation.countField_eq_ok hconstraints⟩

/-- An index is accepted only if its lists fit their counts and no vertex of
its mapping repeats. -/
theorem exists_countFields_of_step_write {reported : ℕ} {writer : Writer}
    (haccepted : (index.write.step writer).1 = .ok reported) :
    ∃ mappingCount constraintCount,
      countFields index.mapping.length index.constraints.length =
          .ok (mappingCount, constraintCount) ∧
        (index.mapping.map MappingEntry.vertex).Nodup := by
  rw [write] at haccepted
  obtain ⟨⟨mappingCount, constraintCount⟩, hcounts, haccepted⟩ :=
    Action.exists_of_step_check_bind haccepted
  obtain ⟨_, hcheck, -⟩ := Action.exists_of_step_check_bind haccepted
  exact ⟨mappingCount, constraintCount, hcounts,
    checkVertices_eq_ok_iff.mp hcheck⟩

/-- What an accepted index puts on the target is what reading it takes, and
reading finds the entries by vertex, the constraints in order and the size. -/
theorem write_read {reported : ℕ} {writer : Writer}
    (haccepted : (index.write.step writer).1 = .ok reported) :
    ∃ bytes decoded,
      Writer.Emits index.write bytes decoded.size ∧
        bytes.length = decoded.size ∧
        Reader.Consumes read bytes decoded ∧
        decoded.mappings.toList.Perm index.mapping ∧
        (decoded.mappings.toList.Pairwise fun left right =>
          left.vertex < right.vertex) ∧
        decoded.constraints.toList = index.constraints := by
  obtain ⟨mappingCount, constraintCount, hcounts, hdistinct⟩ :=
    exists_countFields_of_step_write haccepted
  obtain ⟨hmapping, hconstraints⟩ := countFields_eq_ok hcounts
  exact ⟨_, _, emits_write hcounts hdistinct, rfl,
    consumes_read hmapping hconstraints,
    SortedMappings.toList_ofList_perm index.mapping,
    SortedMappings.toList_ofList_pairwise_lt hdistinct,
    Constraints.toList_ofList index.constraints⟩

end PersistenceIndex

end PackedTopology
