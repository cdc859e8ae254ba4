import PackedTopology.Proofs.FieldGrammar
import PackedTopology.Proofs.IndexRoundTrip

/-!
# The grammar of a persistence index

Every list of bytes either starts with the stored form of an index or is cut
within the fields that it declares.  The two counts tell these fields: the
first one says where the second one stands, and both say where the record
ends.  A cut record is refused for the first field that is not there whole,
and for nothing else.
-/

namespace PackedTopology

namespace PersistenceIndex

/-! ## The fields of a record -/

def entrySlots : List Slot :=
  [⟨.mappingEntries, 4⟩, ⟨.mappingEntries, 8⟩]

def constraintSlots : List Slot :=
  [⟨.constraintEntries, 4⟩, ⟨.constraintEntries, 8⟩, ⟨.constraintEntries, 4⟩]

/-- The fields of a record with these counts. -/
def recordSlots (mapping constraints : ℕ) : List Slot :=
  [⟨.mappingCount, 4⟩] ++ (Slot.times mapping entrySlots ++
    ([⟨.constraintCount, 4⟩] ++ Slot.times constraints constraintSlots))

theorem total_recordSlots (mapping constraints : ℕ) :
    Slot.total (recordSlots mapping constraints) =
      recordSize mapping constraints := by
  simp only [recordSlots, recordSize, entrySlots, constraintSlots,
    mappingEntrySize, constraintSize, Slot.total_append, Slot.total_times,
    Slot.total_cons, Slot.total_nil]
  omega

theorem decides_entry :
    Reader.Decides entrySlots takeEntry storedEntry fun _ => True where
  consumes entry _ := consumes_entry entry
  length_stored entry _ := by
    simp only [storedEntry, List.length_append, Field.length_bytes]
    rfl
  starts_or_stops rest := by
    apply (@Reader.decides_take Int32 _ _ .mappingEntries).bind
    intro vertex more _ hrest
    apply (@Reader.decides_take Scalar _ _ .mappingEntries).bind
    intro value last _ hmore
    left
    refine ⟨⟨vertex, value⟩, last, trivial, ?_⟩
    rw [hrest, hmore, storedEntry, List.append_assoc]

theorem decides_constraint :
    Reader.Decides constraintSlots takeConstraint storedConstraint
      fun _ => True where
  consumes constraint _ := consumes_constraint constraint
  length_stored constraint _ := by
    simp only [storedConstraint, List.length_append, Field.length_bytes]
    rfl
  starts_or_stops rest := by
    apply (@Reader.decides_take Int32 _ _ .constraintEntries).bind
    intro vertex more _ hrest
    apply (@Reader.decides_take Scalar _ _ .constraintEntries).bind
    intro value next _ hmore
    apply (@Reader.decides_take Int32 _ _ .constraintEntries).bind
    intro kind last _ hnext
    left
    refine ⟨⟨vertex, value, kind⟩, last, trivial, ?_⟩
    simp [hrest, hmore, hnext, storedConstraint]

/-! ## Records -/

/-- The number of mapping entries that a list of bytes starts with. -/
def declaredMapping (bytes : List UInt8) : ℕ :=
  LittleEndian.number (bytes.take 4)

/-- The number of constraints, which stands behind that many entries. -/
def declaredConstraints (bytes : List UInt8) : ℕ :=
  LittleEndian.number
    ((bytes.drop (4 + declaredMapping bytes * mappingEntrySize)).take 4)

def declaredSize (bytes : List UInt8) : ℕ :=
  recordSize (declaredMapping bytes) (declaredConstraints bytes)

section

variable {bytes more : List UInt8} {mappingCount constraintCount : UInt32}

theorem declaredMapping_eq (hbytes : bytes = Field.bytes mappingCount ++ more) :
    declaredMapping bytes = mappingCount.toNat := by
  rw [declaredMapping, hbytes, Field.number_take_word]

theorem declaredConstraints_eq {mapping : List MappingEntry}
    (hbytes : bytes = Field.bytes mappingCount ++ (mapping.flatMap storedEntry ++
      (Field.bytes constraintCount ++ more)))
    (hlength : mapping.length = mappingCount.toNat) :
    declaredConstraints bytes = constraintCount.toNat := by
  have hentries := (decides_entry.times mappingCount.toNat).length_stored mapping
    hlength
  have hbefore : (Field.bytes mappingCount ++ mapping.flatMap storedEntry).length =
      4 + mappingCount.toNat * mappingEntrySize := by
    rw [List.length_append, hentries, Slot.total_times, Field.length_bytes]
    rfl
  rw [declaredConstraints, declaredMapping_eq hbytes, hbytes,
    ← List.append_assoc, List.drop_left' hbefore, Field.number_take_word]

end

/-- The two lists of a record are there, or reading them stops in one of the
fields that the bytes declare. -/
theorem takeLists_starts_or_stops (bytes : List UInt8) :
    (∃ (index : PersistenceIndex) (mappingCount constraintCount : UInt32)
        (more : List UInt8),
      index.mapping.length = mappingCount.toNat ∧
        index.constraints.length = constraintCount.toNat ∧
        bytes = storedIndex mappingCount constraintCount index ++ more) ∨
      ∀ counted,
        Reader.StopsIn
          (recordSlots (declaredMapping bytes) (declaredConstraints bytes))
          takeLists bytes counted := by
  apply (@Reader.decides_take UInt32 _ _ .mappingCount).bind
  intro mappingCount entries _ hbytes
  rw [declaredMapping_eq hbytes]
  apply (decides_entry.times mappingCount.toNat).bind
  intro mapping rest hmapping hentries
  apply (@Reader.decides_take UInt32 _ _ .constraintCount).bind
  intro constraintCount next _ hrest
  rw [hentries, hrest] at hbytes
  rw [declaredConstraints_eq hbytes hmapping]
  rw [← List.append_nil (Slot.times constraintCount.toNat constraintSlots)]
  apply (decides_constraint.times constraintCount.toNat).bind
  intro constraints more hconstraints hnext
  left
  refine ⟨⟨mapping, constraints⟩, mappingCount, constraintCount, more, hmapping,
    hconstraints, ?_⟩
  simp [hbytes, hnext, storedIndex]

theorem length_storedIndex {index : PersistenceIndex}
    (mappingCount constraintCount : UInt32) :
    (storedIndex mappingCount constraintCount index).length =
      recordSize index.mapping.length index.constraints.length := by
  have hmapping := (decides_entry.times index.mapping.length).length_stored _ rfl
  have hconstraints :=
    (decides_constraint.times index.constraints.length).length_stored _ rfl
  rw [← total_recordSlots, storedIndex, recordSlots]
  simp only [List.length_append, Slot.total_append, hmapping, hconstraints,
    Field.length_bytes]
  rfl

theorem stopsIn_read {bytes : List UInt8} {counted : ℕ} {slots : List Slot}
    (hstop : Reader.StopsIn slots takeLists bytes counted) :
    Reader.StopsIn slots read bytes counted :=
  hstop.measured.bind_last _

theorem step_read_of_stored {index : PersistenceIndex}
    {mappingCount constraintCount : UInt32}
    (hmapping : index.mapping.length = mappingCount.toNat)
    (hconstraints : index.constraints.length = constraintCount.toNat)
    (more : List UInt8) {bytes : List UInt8}
    (hbytes : bytes = storedIndex mappingCount constraintCount index ++ more) :
    declaredMapping bytes = mappingCount.toNat ∧
      declaredConstraints bytes = constraintCount.toNat ∧
      declaredSize bytes ≤ bytes.length ∧
      bytes.drop (declaredSize bytes) = more ∧
      read.step (.ofList bytes) =
        (.ok ⟨.ofList index.mapping, .ofList index.constraints,
            declaredSize bytes⟩,
          .holding more (declaredSize bytes)) := by
  have hfields : bytes = Field.bytes mappingCount ++
      (index.mapping.flatMap storedEntry ++ (Field.bytes constraintCount ++
        (index.constraints.flatMap storedConstraint ++ more))) := by
    simp [hbytes, storedIndex]
  have hfirst := declaredMapping_eq hfields
  have hsecond := declaredConstraints_eq hfields hmapping
  have hlength : (storedIndex mappingCount constraintCount index).length =
      declaredSize bytes := by
    rw [length_storedIndex, declaredSize, hfirst, hsecond, hmapping, hconstraints]
  have hread := consumes_read hmapping.symm hconstraints.symm more 0
  rw [← hbytes, hlength, Nat.zero_add] at hread
  refine ⟨hfirst, hsecond, ?_, ?_, hread⟩
  · have htotal := congrArg List.length hbytes
    rw [List.length_append, hlength] at htotal
    omega
  · have hdrop := congrArg (List.drop (declaredSize bytes)) hbytes
    rwa [List.drop_left' hlength] at hdrop

/-- Reading an index from any bytes.  If they are as many as the record that
they declare, all its entries and constraints are found, with every bit that is
stored, and the bytes behind it are left.  Otherwise the fault names the first
of the declared fields that is not there whole. -/
theorem read_grammar (bytes : List UInt8) :
    ((∃ decoded, (read.step (.ofList bytes)).1 = .ok decoded) ↔
      declaredSize bytes ≤ bytes.length) ∧
    (declaredSize bytes ≤ bytes.length →
      ∃ index mappingCount constraintCount decoded,
        index.mapping.length = declaredMapping bytes ∧
        index.constraints.length = declaredConstraints bytes ∧
        bytes = storedIndex mappingCount constraintCount index ++
          bytes.drop (declaredSize bytes) ∧
        read.step (.ofList bytes) =
          (.ok decoded, .holding (bytes.drop (declaredSize bytes))
            (declaredSize bytes)) ∧
        decoded.mappings.toList.Perm index.mapping ∧
        decoded.constraints.toList = index.constraints ∧
        decoded.size =
          8 + 12 * declaredMapping bytes + 16 * declaredConstraints bytes) ∧
    (bytes.length < declaredSize bytes →
      ∃ before slot after,
        recordSlots (declaredMapping bytes) (declaredConstraints bytes) =
          before ++ slot :: after ∧
        Slot.total before ≤ bytes.length ∧
        bytes.length < Slot.total before + slot.size ∧
        read.step (.ofList bytes) =
          (.error (.incomplete slot.region (Slot.total before) slot.size),
            .holding [] (Slot.total before))) := by
  rcases takeLists_starts_or_stops bytes with
    ⟨index, mappingCount, constraintCount, more, hmapping, hconstraints,
      hbytes⟩ | hstop
  · obtain ⟨hfirst, hsecond, hwhole, hmore, hread⟩ :=
      step_read_of_stored hmapping hconstraints more hbytes
    refine ⟨?_, ?_, ?_⟩
    · simp [hread, hwhole]
    · intro _
      rw [hmore]
      refine ⟨index, mappingCount, constraintCount, _, ?_, ?_, hbytes, hread,
        SortedMappings.toList_ofList_perm index.mapping,
        Constraints.toList_ofList index.constraints, ?_⟩
      · rw [hmapping, hfirst]
      · rw [hconstraints, hsecond]
      · show declaredSize bytes = _
        rw [declaredSize, recordSize, mappingEntrySize, constraintSize]
        omega
    · intro hshort
      omega
  · have hshort := (hstop 0).length_lt
    rw [total_recordSlots, ← declaredSize] at hshort
    obtain ⟨before, slot, after, hslots, hbefore, hslot, hstep⟩ :=
      stopsIn_read (hstop 0)
    rw [Nat.zero_add, ← Reader.ofList_eq_holding] at hstep
    refine ⟨?_, ?_, ?_⟩
    · simp only [hstep, reduceCtorEq, exists_false, false_iff]
      omega
    · intro hwhole
      omega
    · intro _
      exact ⟨before, slot, after, hslots, hbefore, hslot, hstep⟩

end PersistenceIndex

end PackedTopology
