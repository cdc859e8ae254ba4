import Mathlib.Tactic.IntervalCases
import PackedTopology.Proofs.IndexReencoding
import PackedTopology.Proofs.Pouring

/-!
# Which indices are refused

An index is refused if its mapping is too long for its count, else if its
constraints are, else if a vertex of its mapping repeats; the vertex named is the
one at the least place that repeats an earlier one.  Nothing else of an index is
looked at, neither its values nor the vertices of its constraints.  The checks
come before the first byte, so a writer is left as it was.  Every other index is
written onto a target without bounds, in as many bytes as its lengths tell.
-/

namespace PackedTopology.PersistenceIndex

/-! ## The least place of a repeat -/

/-- The vertex at this place stands at an earlier one too, and nothing repeats
before it. -/
structure RepeatsFirst (vertices : List Int32) (place : ℕ) (vertex : Int32) :
    Prop where
  at_place : vertices[place]? = some vertex
  repeats : vertex ∈ vertices.take place
  fresh : ∀ earlier other, earlier < place → vertices[earlier]? = some other →
    other ∉ vertices.take earlier

variable {vertices : List Int32} {place : ℕ} {vertex : Int32}

theorem RepeatsFirst.unique {otherPlace : ℕ} {other : Int32}
    (hfirst : RepeatsFirst vertices place vertex)
    (hother : RepeatsFirst vertices otherPlace other) : vertex = other := by
  rcases Nat.lt_trichotomy place otherPlace with hlt | rfl | hlt
  · exact absurd hfirst.repeats
      (hother.fresh place vertex hlt hfirst.at_place)
  · exact Option.some.inj (hfirst.at_place.symm.trans hother.at_place)
  · exact absurd hother.repeats
      (hfirst.fresh otherPlace other hlt hother.at_place)

theorem notMem_take_of_nodup (hnodup : vertices.Nodup)
    (hat : vertices[place]? = some vertex) : vertex ∉ vertices.take place := by
  obtain ⟨hplace, rfl⟩ := List.getElem?_eq_some_iff.mp hat
  intro hmem
  obtain ⟨earlier, hearlier, hsame⟩ := List.mem_take_iff_getElem.mp hmem
  have hplaces := (hnodup.getElem_inj_iff).mp hsame
  omega

theorem exists_repeatsFirst (hrepeat : firstRepeat vertices = some vertex) :
    ∃ place, RepeatsFirst vertices place vertex := by
  obtain ⟨before, rest, rfl, hnodup, -, hseen | hfound⟩ :=
    exists_front_of_firstRepeatAfter hrepeat
  · exact absurd hseen Std.TreeSet.not_mem_emptyc
  · refine ⟨before.length, by simp, by simpa using hfound, ?_⟩
    intro earlier other hearlier hat
    rw [List.getElem?_append_left hearlier] at hat
    rw [List.take_append_of_le_length hearlier.le]
    exact notMem_take_of_nodup hnodup hat

theorem firstRepeat_eq_some_iff :
    firstRepeat vertices = some vertex ↔
      ∃ place, RepeatsFirst vertices place vertex := by
  constructor
  · exact exists_repeatsFirst
  · rintro ⟨place, hfirst⟩
    cases hrepeat : firstRepeat vertices with
    | none =>
        obtain ⟨hnodup, -⟩ :=
          (firstRepeatAfter_eq_none_iff ∅ vertices).mp hrepeat
        exact absurd hfirst.repeats
          (notMem_take_of_nodup hnodup hfirst.at_place)
    | some found =>
        obtain ⟨foundPlace, hfound⟩ := exists_repeatsFirst hrepeat
        rw [hfound.unique hfirst]

/-! ## Reasons to refuse -/

/-- The faults for which an index is refused that has these vertices in its
mapping and this many constraints. -/
inductive Refused (vertices : List Int32) (constraints : ℕ) : Fault → Prop
  | mappingTooLong (hmapping : 2 ^ 32 ≤ vertices.length) :
      Refused vertices constraints (.countOverflow .mappingCount vertices.length)
  | constraintsTooLong (hmapping : vertices.length < 2 ^ 32)
      (hconstraints : 2 ^ 32 ≤ constraints) :
      Refused vertices constraints (.countOverflow .constraintCount constraints)
  | vertexRepeated (hmapping : vertices.length < 2 ^ 32)
      (hconstraints : constraints < 2 ^ 32) (place : ℕ) (vertex : Int32)
      (hfirst : RepeatsFirst vertices place vertex) :
      Refused vertices constraints (.repeatedVertex vertex)

variable {index : PersistenceIndex} {fault : Fault}

theorem step_write_of_counts_error
    (hcounts : countFields index.mapping.length index.constraints.length =
      .error fault) (writer : Writer) :
    index.write.step writer = (.error fault, writer) := by
  rw [(pours_write_of_counts hcounts).step_of_fits writer writer.fits_nil,
    Writer.after_nil]

theorem step_write_of_refused
    (hrefused : Refused (index.mapping.map MappingEntry.vertex)
      index.constraints.length fault) (writer : Writer) :
    index.write.step writer = (.error fault, writer) := by
  have hlength : (index.mapping.map MappingEntry.vertex).length =
      index.mapping.length := List.length_map _
  cases hrefused with
  | mappingTooLong hmapping =>
      rw [hlength] at hmapping ⊢
      exact step_write_of_counts_error (countFields_of_mapping_le hmapping) writer
  | constraintsTooLong hmapping hconstraints =>
      rw [hlength] at hmapping
      exact step_write_of_counts_error
        (countFields_of_constraints_le hmapping hconstraints) writer
  | vertexRepeated hmapping hconstraints place vertex hfirst =>
      rw [hlength] at hmapping
      exact step_write_of_repeat (countFields_of_lt hmapping hconstraints)
        (firstRepeat_eq_some_iff.mpr ⟨place, hfirst⟩) writer

/-- What is not refused has counts that fit and vertices that do not repeat. -/
theorem countFields_and_nodup_of_not_refused
    (haccepted : ∀ fault, ¬Refused (index.mapping.map MappingEntry.vertex)
      index.constraints.length fault) :
    (∃ counts, countFields index.mapping.length index.constraints.length =
      .ok counts) ∧ (index.mapping.map MappingEntry.vertex).Nodup := by
  have hlength : (index.mapping.map MappingEntry.vertex).length =
      index.mapping.length := List.length_map _
  have hmapping : index.mapping.length < 2 ^ 32 := by
    rw [← hlength]
    exact Nat.lt_of_not_le fun hle => haccepted _ (.mappingTooLong hle)
  have hconstraints : index.constraints.length < 2 ^ 32 :=
    Nat.lt_of_not_le fun hle =>
      haccepted _ (.constraintsTooLong (hlength ▸ hmapping) hle)
  refine ⟨⟨_, countFields_of_lt hmapping hconstraints⟩, ?_⟩
  cases hrepeat : firstRepeat (index.mapping.map MappingEntry.vertex) with
  | none => exact ((firstRepeatAfter_eq_none_iff ∅ _).mp hrepeat).1
  | some vertex =>
      obtain ⟨place, hfirst⟩ := exists_repeatsFirst hrepeat
      exact absurd
        (.vertexRepeated (hlength ▸ hmapping) hconstraints place vertex hfirst)
        (haccepted _)

theorem step_write_of_not_refused
    (haccepted : ∀ fault, ¬Refused (index.mapping.map MappingEntry.vertex)
      index.constraints.length fault) {writer : Writer}
    (hmedium : writer.medium = .unbounded) :
    ∃ bytes, bytes.length = index.encodedSize ∧
      index.write.step writer = (.ok index.encodedSize, writer.after bytes) := by
  obtain ⟨⟨⟨mappingCount, constraintCount⟩, hcounts⟩, hnodup⟩ :=
    countFields_and_nodup_of_not_refused haccepted
  have hlength := @length_storedIndex index mappingCount constraintCount
  have hwrite := emits_write hcounts hnodup writer hmedium
  rw [hlength] at hwrite
  exact ⟨_, hlength, hwrite⟩

theorem step_write_eq_error_iff {writer : Writer}
    (hmedium : writer.medium = .unbounded) :
    (index.write.step writer).1 = .error fault ↔
      Refused (index.mapping.map MappingEntry.vertex) index.constraints.length
        fault := by
  constructor
  · intro hfails
    by_cases haccepted : ∀ fault,
        ¬Refused (index.mapping.map MappingEntry.vertex)
          index.constraints.length fault
    · obtain ⟨bytes, -, hstep⟩ := step_write_of_not_refused haccepted hmedium
      rw [hstep] at hfails
      cases hfails
    · obtain ⟨reason, hrefused⟩ := not_forall_not.mp haccepted
      rw [step_write_of_refused hrefused] at hfails
      obtain rfl := Except.error.inj hfails
      exact hrefused
  · exact fun hrefused =>
      congrArg Prod.fst (step_write_of_refused hrefused writer)

/-- An index is refused exactly for a list that is too long for its count, that of
the mapping first, and otherwise for the first vertex of its mapping that repeats
an earlier one, and no refusal touches the writer.  Any other index is written,
and its bytes are as many as reported and as its lengths tell.  So two indices
with the same vertices in their mappings and as many constraints are refused
alike, whatever their values and the vertices of their constraints are. -/
theorem write_refuses_exactly (index : PersistenceIndex) {writer : Writer}
    (hmedium : writer.medium = .unbounded) :
    (∀ fault, (index.write.step writer).1 = .error fault ↔
      Refused (index.mapping.map MappingEntry.vertex) index.constraints.length
        fault) ∧
    (∀ fault, (index.write.step writer).1 = .error fault →
      (index.write.step writer).2 = writer) ∧
    ((∀ fault, ¬Refused (index.mapping.map MappingEntry.vertex)
        index.constraints.length fault) →
      index.encodedSize =
        8 + 12 * index.mapping.length + 16 * index.constraints.length ∧
      ∃ bytes after, bytes.length = index.encodedSize ∧
        index.write.step writer = (.ok index.encodedSize, after) ∧
        after.content = writer.content ++ bytes ∧
        after.counted = writer.counted + index.encodedSize) ∧
    (∀ other : PersistenceIndex,
      other.mapping.map MappingEntry.vertex =
        index.mapping.map MappingEntry.vertex →
      other.constraints.length = index.constraints.length →
      ∀ fault, (other.write.step writer).1 = .error fault ↔
        (index.write.step writer).1 = .error fault) := by
  refine ⟨fun fault => step_write_eq_error_iff hmedium, ?_, ?_, ?_⟩
  · intro fault hfails
    have hrefused := (step_write_eq_error_iff hmedium).mp hfails
    exact congrArg Prod.snd (step_write_of_refused hrefused writer)
  · intro haccepted
    obtain ⟨bytes, hlength, hstep⟩ :=
      step_write_of_not_refused haccepted hmedium
    refine ⟨?_, bytes, _, hlength, hstep, Writer.content_after writer bytes, ?_⟩
    · rw [encodedSize, recordSize, mappingEntrySize, constraintSize]
      omega
    · rw [Writer.counted_after, hlength]
  · intro other hvertices hconstraints fault
    rw [step_write_eq_error_iff hmedium, step_write_eq_error_iff hmedium,
      hvertices, hconstraints]

/-- Behind a byte that is there already: of two vertices that repeat, the one
whose second entry comes first is named, whatever the constraints are; and an
index that repeats a vertex among its constraints only, and has no number in it,
is written. -/
theorem write_refuses_exactly_samples :
    let writer : Writer := ⟨.unbounded, #[9], 1⟩
    let nan : Scalar := ⟨0x7ff8000000000000⟩
    (∀ constraints : List Constraint, constraints.length < 2 ^ 32 →
      (write ⟨[⟨4, nan⟩, ⟨7, ⟨0⟩⟩, ⟨7, nan⟩, ⟨4, ⟨0⟩⟩], constraints⟩).step writer =
        (.error (.repeatedVertex 7), writer)) ∧
    ∃ after, (write ⟨[⟨4, nan⟩], [⟨7, nan, 0⟩, ⟨7, nan, 0⟩]⟩).step writer =
        (.ok 52, after) ∧ after.content.length = 53 ∧ after.counted = 53 := by
  intro writer nan
  refine ⟨?_, ?_⟩
  · intro constraints hconstraints
    obtain ⟨hexact, hunchanged, -, -⟩ := @write_refuses_exactly
      ⟨[⟨4, nan⟩, ⟨7, ⟨0⟩⟩, ⟨7, nan⟩, ⟨4, ⟨0⟩⟩], constraints⟩ writer rfl
    have hfirst : RepeatsFirst [4, 7, 7, 4] 2 7 := by
      refine ⟨rfl, by decide, ?_⟩
      intro earlier other hearlier hat
      interval_cases earlier
      · simp
      · obtain rfl : 7 = other := Option.some.inj hat
        decide
    have hfails := (hexact _).mpr
      (.vertexRepeated (by simp) hconstraints 2 7 hfirst)
    exact Prod.ext hfails (hunchanged _ hfails)
  · obtain ⟨-, -, haccepts, -⟩ := @write_refuses_exactly
      ⟨[⟨4, nan⟩], [⟨7, nan, 0⟩, ⟨7, nan, 0⟩]⟩ writer rfl
    have haccepted : ∀ fault, ¬Refused [4] 2 fault := by
      rintro _ (hmapping | ⟨-, hconstraints⟩ | ⟨-, -, place, vertex, hfirst⟩)
      · simp at hmapping
      · simp at hconstraints
      · exact notMem_take_of_nodup (by decide) hfirst.at_place hfirst.repeats
    obtain ⟨-, bytes, after, hlength, hstep, hcontent, hcounted⟩ :=
      haccepts haccepted
    refine ⟨after, hstep, ?_, hcounted⟩
    rw [hcontent, List.length_append, hlength]
    rfl

end PackedTopology.PersistenceIndex
