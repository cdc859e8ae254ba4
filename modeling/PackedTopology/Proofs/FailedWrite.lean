import PackedTopology.Proofs.IndexGrammar
import PackedTopology.Proofs.Pouring

/-!
# What a failed write leaves behind

A write may fail because its arguments are refused or because its target is
full, and it leaves the front of a record behind: nothing at all, a part of a
count, a header without its words, or a payload that is cut.  None of these is
a record of its own, since every record says by its counts how far it goes.
Reading what is left therefore runs into the end of the bytes.
-/

namespace PackedTopology

/-- Reading these bytes runs into their end. -/
def Reader.RunsShort {α : Type} (action : Action Reader α)
    (bytes : List UInt8) : Prop :=
  ∃ region offset needed,
    (action.step (.ofList bytes)).1 = .error (.incomplete region offset needed)

namespace Writer.Pours

variable {α : Type} {action : Action Writer α} {bytes : List UInt8}
  {result : Except Fault α}

theorem exists_content_eq_take (hpours : Pours action bytes result)
    (medium : Medium) :
    ∃ count, (action.step (.empty medium)).2.content = bytes.take count := by
  by_cases hfits : (Writer.empty medium).Fits bytes
  · refine ⟨bytes.length, ?_⟩
    simp [hpours.step_of_fits _ hfits]
  · obtain ⟨counted, -, -, hstep⟩ := hpours.step_of_not_fits _ hfits
    obtain ⟨count, haccepted⟩ := (empty medium).exists_accepted_eq_take bytes
    exact ⟨count, by simp [hstep, haccepted]⟩

/-- An action that would succeed fails only for want of room, and leaves
something out then. -/
theorem exists_content_of_failure {value : α}
    (hpours : Pours action bytes (.ok value)) {medium : Medium} {fault : Fault}
    (hfails : (action.step (.empty medium)).1 = .error fault) :
    ∃ count, count < bytes.length ∧
      (action.step (.empty medium)).2.content = bytes.take count := by
  by_cases hfits : (Writer.empty medium).Fits bytes
  · rw [hpours.step_of_fits _ hfits] at hfails
    cases hfails
  · obtain ⟨counted, -, -, hstep⟩ := hpours.step_of_not_fits _ hfits
    obtain ⟨count, haccepted⟩ := (empty medium).exists_accepted_eq_take bytes
    rw [Fits, haccepted, List.length_take] at hfits
    exact ⟨count, by omega, by simp [hstep, haccepted]⟩

end Writer.Pours

open Writer

/-! ## Segmentations -/

namespace Segmentation

theorem runsShort_of_lt_eight {bytes : List UInt8} (hshort : bytes.length < 8) :
    Reader.RunsShort (read none) bytes := by
  obtain ⟨offset, after, hheader⟩ := step_header_of_lt 0 hshort
  refine ⟨.segmentationHeader, offset, 4, ?_⟩
  rw [Reader.ofList_eq_holding, step_read_of_error hheader]

/-- Bytes that go on like a record with this header, but stop before the last
of its words. -/
theorem runsShort_of_front {header : Header} {width : ℕ}
    {payload bytes : List UInt8}
    (hwidth : fieldWidth header.segments.toNat = .ok width)
    (hfront : bytes <+: storedHeader header ++ payload)
    (hshort : bytes.length < 8 + 4 * wordCount header.vertices.toNat width) :
    Reader.RunsShort (read none) bytes := by
  by_cases height : bytes.length < 8
  · exact runsShort_of_lt_eight height
  · have hlength : (storedHeader header).length = 8 := length_storedHeader header
    obtain ⟨rest, rfl⟩ : storedHeader header <+: bytes :=
      List.prefix_of_prefix_length_le (List.prefix_append _ _) hfront (by omega)
    have hlack : ¬4 * wordCount header.vertices.toNat width ≤ rest.length := by
      rw [List.length_append] at hshort
      omega
    have hbody := @step_readBody_holding width (0 + (storedHeader header).length)
      header rest hwidth
    rw [if_neg hlack] at hbody
    have hread := (@step_read_of_admitted _ _ _ none
      (consumes_header header rest 0) (by simp)).trans hbody
    exact ⟨_, _, _, congrArg Prod.fst hread⟩

/-- Only a list with ids in it can be refused for its ids, and ids take
words. -/
theorem wordCount_pos_of_pack_error {ids : List UInt32} {segments width : ℕ}
    {fault : Fault} (hwidth : fieldWidth segments = .ok width)
    (hpack : pack ids segments = .error fault) :
    0 < wordCount ids.length width := by
  have hids : ids ≠ [] := by
    rintro rfl
    have hnone : pack [] segments = .ok (wordsOf width []) :=
      pack_eq_ok_iff.mpr ⟨width, hwidth, by simp, rfl⟩
    rw [hpack] at hnone
    cases hnone
  have hbits : 0 < ids.length * width :=
    Nat.mul_pos (List.length_pos_iff.mpr hids) (fieldWidth_pos hwidth)
  have hle := le_wordCount_mul ids.length width
  omega

theorem size_of_pack {ids : List UInt32} {segments width : ℕ}
    {words : Array UInt32} (hwidth : fieldWidth segments = .ok width)
    (hpack : pack ids segments = .ok words) :
    words.size = wordCount ids.length width := by
  obtain ⟨_, hsame, hids, rfl⟩ := pack_eq_ok_iff.mp hpack
  obtain rfl := Except.ok.inj (hwidth.symm.trans hsame)
  apply size_wordsOf (fieldWidth_le hwidth)
  intro id hid
  exact (hids id hid).trans (lt_two_pow_fieldWidth hwidth)

theorem runsShort_of_failed_write {ids : List UInt32} {segments : ℕ}
    {medium : Medium} {fault : Fault}
    (hfails : ((write ids segments).step (.empty medium)).1 = .error fault) :
    Reader.RunsShort (read none)
      ((write ids segments).step (.empty medium)).2.content := by
  cases hcount : countField .segmentationHeader ids.length with
  | error fault =>
      have hpours := @pours_write_of_count ids segments _ hcount
      obtain ⟨count, hcontent⟩ := hpours.exists_content_eq_take medium
      exact runsShort_of_lt_eight (by simp [hcontent])
  | ok vertices =>
      cases hwidth : fieldWidth segments with
      | error fault =>
          have hpours := pours_write_of_width hcount hwidth
          obtain ⟨count, hcontent⟩ := hpours.exists_content_eq_take medium
          exact runsShort_of_lt_eight (by simp [hcontent])
      | ok width =>
          have hvertices : vertices.toNat = ids.length := countField_eq_ok hcount
          have hsegments : (UInt32.ofNat segments).toNat = segments :=
            UInt32.toNat_ofNat_of_lt' (fieldWidth_eq_ok_iff.mp hwidth).2.1
          have hheader : fieldWidth
              (Header.mk vertices (UInt32.ofNat segments)).segments.toNat =
                .ok width := by
            rw [hsegments]
            exact hwidth
          cases hpack : pack ids segments with
          | error fault =>
              have hpours := pours_write_of_ids hcount hwidth hpack
              obtain ⟨count, hcontent⟩ := hpours.exists_content_eq_take medium
              rw [hcontent]
              apply @runsShort_of_front _ _ [] _ hheader
              · rw [List.append_nil]
                exact List.take_prefix _ _
              · have hwords := wordCount_pos_of_pack_error hwidth hpack
                rw [List.length_take, length_storedHeader, hvertices]
                have hsize : Header.size = 8 := rfl
                omega
          | ok words =>
              have hpours := pours_write hcount hwidth hpack
              obtain ⟨count, hlt, hcontent⟩ :=
                hpours.exists_content_of_failure hfails
              rw [hcontent]
              apply runsShort_of_front hheader (List.take_prefix _ _)
              rw [List.length_append, length_storedHeader, length_storedWords,
                Array.length_toList, size_of_pack hwidth hpack] at hlt
              rw [List.length_take, hvertices]
              have hsize : Header.size = 8 := rfl
              omega

end Segmentation

/-! ## Indices -/

namespace PersistenceIndex

/-- No stored index is the front of another one, so what is missing from it
makes its reading stop in a field. -/
theorem runsShort_of_take {index : PersistenceIndex}
    {mappingCount constraintCount : UInt32}
    (hmapping : mappingCount.toNat = index.mapping.length)
    (hconstraints : constraintCount.toNat = index.constraints.length) {count : ℕ}
    (hcount : count <
      (storedIndex mappingCount constraintCount index).length) :
    Reader.RunsShort read
      ((storedIndex mappingCount constraintCount index).take count) := by
  have hwhole := consumes_read hmapping hconstraints
  rcases takeLists_starts_or_stops
      ((storedIndex mappingCount constraintCount index).take count) with
    ⟨other, otherMapping, otherConstraints, more, hfirst, hsecond, hfront⟩ | hstop
  · -- Another index stored in the part would be found in the whole as well,
    -- so the two readings consume the same bytes.
    have hall := List.take_append_drop count
      (storedIndex mappingCount constraintCount index)
    rw [hfront, List.append_assoc] at hall
    rw [← hall] at hwhole
    have hnil := (consumes_read hfirst.symm hsecond.symm).eq_nil_of_append hwhole
    have hdrop := congrArg List.length (List.append_eq_nil_iff.mp hnil).2
    rw [List.length_drop, List.length_nil] at hdrop
    omega
  · obtain ⟨before, slot, after, -, -, -, hstep⟩ := stopsIn_read (hstop 0)
    rw [← Reader.ofList_eq_holding] at hstep
    exact ⟨_, _, _, congrArg Prod.fst hstep⟩

theorem runsShort_nil : Reader.RunsShort read [] :=
  @runsShort_of_take ⟨[], []⟩ 0 0 rfl rfl 0 (by decide)

theorem runsShort_of_failed_write {index : PersistenceIndex} {medium : Medium}
    {fault : Fault}
    (hfails : (index.write.step (.empty medium)).1 = .error fault) :
    Reader.RunsShort read (index.write.step (.empty medium)).2.content := by
  cases hcounts : countFields index.mapping.length index.constraints.length with
  | error fault =>
      have hpours := pours_write_of_counts hcounts
      obtain ⟨count, hcontent⟩ := hpours.exists_content_eq_take medium
      rw [hcontent, List.take_nil]
      exact runsShort_nil
  | ok counts =>
      cases hvertices : checkVertices index.mapping with
      | error fault =>
          have hpours := pours_write_of_vertices hcounts hvertices
          obtain ⟨count, hcontent⟩ := hpours.exists_content_eq_take medium
          rw [hcontent, List.take_nil]
          exact runsShort_nil
      | ok checked =>
          have hpours := pours_write hcounts hvertices
          obtain ⟨count, hlt, hcontent⟩ :=
            hpours.exists_content_of_failure hfails
          obtain ⟨hmapping, hconstraints⟩ := countFields_eq_ok hcounts
          rw [hcontent]
          exact runsShort_of_take hmapping hconstraints hlt

end PersistenceIndex

/-- Whatever made it fail, and wherever the target was full, a failed write of
a record leaves nothing that can be read as a record of its kind: reading what
the target holds runs into the end of the bytes. -/
theorem runsShort_of_failure (medium : Medium) :
    (∀ (ids : List UInt32) (segments : ℕ) (fault : Fault) (writer : Writer),
      (Segmentation.write ids segments).step (.empty medium) =
        (.error fault, writer) →
      ∃ region offset needed,
        ((Segmentation.read none).step (.ofList writer.content)).1 =
          .error (.incomplete region offset needed)) ∧
    (∀ (index : PersistenceIndex) (fault : Fault) (writer : Writer),
      index.write.step (.empty medium) = (.error fault, writer) →
      ∃ region offset needed,
        (PersistenceIndex.read.step (.ofList writer.content)).1 =
          .error (.incomplete region offset needed)) := by
  constructor
  · intro ids segments fault writer hwrite
    have hshort := Segmentation.runsShort_of_failed_write
      (congrArg Prod.fst hwrite)
    rwa [hwrite] at hshort
  · intro index fault writer hwrite
    have hshort := PersistenceIndex.runsShort_of_failed_write
      (congrArg Prod.fst hwrite)
    rwa [hwrite] at hshort

/-- A refused id leaves a whole header without its word. -/
theorem runsShort_of_failure_refused_id :
    ∃ fault writer,
      (Segmentation.write [1, 7] 4).step (.empty (.bounded 9)) =
        (.error fault, writer) ∧
      writer.content = [2, 0, 0, 0, 4, 0, 0, 0] ∧
      ∃ region offset needed,
        ((Segmentation.read none).step (.ofList writer.content)).1 =
          .error (.incomplete region offset needed) := by
  have hwrite : (Segmentation.write [1, 7] 4).step (.empty (.bounded 9)) =
      (.error (.idOutOfRange 1 7 4),
        ⟨.bounded 9, #[2, 0, 0, 0, 4, 0, 0, 0], 8⟩) := by decide
  exact ⟨_, _, hwrite, rfl,
    (runsShort_of_failure (.bounded 9)).1 [1, 7] 4 _ _ hwrite⟩

end PackedTopology
