import Mathlib.Data.List.Forall2
import PackedTopology.Proofs.IndexRoundTrip
import PackedTopology.Script

/-!
# Mixed streams

Records of different kinds go one behind the other through one writer and come
back, in the same order, through one reader.  Each record emits bytes that the
reading of its kind consumes, so nothing that follows is put out of step, be it
more records or bytes that belong to nobody.
-/

namespace PackedTopology

/-- The reading that is of the same kind as a writing.  Packed ids are read
given how many they are and their segment count. -/
inductive Mirrors : WriteStep → ReadStep → Prop
  | word (value : UInt32) (region : Region) :
      Mirrors (.word value) (.word region)
  | integer (value : Int32) (region : Region) :
      Mirrors (.integer value) (.integer region)
  | scalar (value : Scalar) (region : Region) :
      Mirrors (.scalar value) (.scalar region)
  | segmentation (ids : List UInt32) (segments : ℕ) (limit : Option ℕ)
      (hlimit : ∀ bound ∈ limit, ids.length ≤ bound) :
      Mirrors (.segmentation ids segments) (.segmentation limit)
  | packed (ids : List UInt32) (segments : ℕ) :
      Mirrors (.packed ids segments) (.packed ids.length segments)
  | index (content : PersistenceIndex) : Mirrors (.index content) .index

/-- What was written, the bytes that writing it reported, and a reading that
found it unchanged and reports the same. -/
inductive Returns : WriteStep → Option ℕ → Reading → Prop
  | word (value : UInt32) : Returns (.word value) none (.word value)
  | integer (value : Int32) : Returns (.integer value) none (.integer value)
  | scalar (value : Scalar) : Returns (.scalar value) none (.scalar value)
  | segmentation (ids : List UInt32) (segments : ℕ)
      (record : Segmentation.Record)
      (hvertices : record.header.vertices.toNat = ids.length)
      (hsegments : record.header.segments.toNat = segments)
      (hids : record.ids = ids) :
      Returns (.segmentation ids segments) (some record.size)
        (.segmentation record)
  | packed (ids : List UInt32) (segments size : ℕ) :
      Returns (.packed ids segments) (some size) (.packed ids size)
  | index (content : PersistenceIndex) (decoded : DecodedIndex)
      (hperm : decoded.mappings.toList.Perm content.mapping)
      (hsorted : decoded.mappings.toList.Pairwise fun left right =>
        left.vertex < right.vertex)
      (hconstraints : decoded.constraints.toList = content.constraints) :
      Returns (.index content) (some decoded.size) (.index decoded)

/-- Every writing of a list returns, in order. -/
inductive ReturnsAll :
    List WriteStep → List (Option ℕ) → List Reading → Prop
  | nil : ReturnsAll [] [] []
  | cons {write : WriteStep} {report : Option ℕ} {reading : Reading}
      {writes : List WriteStep} {reports : List (Option ℕ)}
      {readings : List Reading}
      (hfirst : Returns write report reading)
      (hrest : ReturnsAll writes reports readings) :
      ReturnsAll (write :: writes) (report :: reports) (reading :: readings)

namespace WriteStep

/-- A writing that succeeds on a target without bounds. -/
def Accepted (write : WriteStep) : Prop :=
  ∃ report, (write.perform.step (.empty .unbounded)).1 = .ok report

theorem accepted_of_emits {write : WriteStep} {bytes : List UInt8}
    {report : Option ℕ} (hemits : Writer.Emits write.perform bytes report) :
    write.Accepted :=
  ⟨report, congrArg Prod.fst (hemits (.empty .unbounded) rfl)⟩

/-- The bytes of a record: those of a single value, or what was reported. -/
def recordSize : WriteStep → Option ℕ → ℕ
  | _, some reported => reported
  | .word _, none => 4
  | .integer _, none => 4
  | .scalar _, none => 8
  | _, none => 0

end WriteStep

theorem Mirrors.exists_emits {write : WriteStep} {read : ReadStep}
    (hmirrors : Mirrors write read) (haccepted : write.Accepted) :
    ∃ bytes report reading,
      Writer.Emits write.perform bytes report ∧
        Reader.Consumes read.perform bytes reading ∧
        bytes.length = write.recordSize report ∧
        Returns write report reading := by
  cases hmirrors with
  | word value region =>
      exact ⟨Field.bytes value, none, .word value,
        (Writer.emits_put value).bind_pure,
        (Reader.consumes_take region value).map _, Field.length_bytes value,
        .word value⟩
  | integer value region =>
      exact ⟨Field.bytes value, none, .integer value,
        (Writer.emits_put value).bind_pure,
        (Reader.consumes_take region value).map _, Field.length_bytes value,
        .integer value⟩
  | scalar value region =>
      exact ⟨Field.bytes value, none, .scalar value,
        (Writer.emits_put value).bind_pure,
        (Reader.consumes_take region value).map _, Field.length_bytes value,
        .scalar value⟩
  | segmentation ids segments limit hlimit =>
      obtain ⟨_, haccepted⟩ := haccepted
      obtain ⟨_, hwrite⟩ := Action.exists_of_step_map haccepted
      obtain ⟨bytes, record, hemits, hsize, hread, hvertices, hsegments,
        hids⟩ := Segmentation.write_read hwrite
      exact ⟨bytes, some record.size, .segmentation record, hemits.map _,
        (hread limit hlimit).map _, hsize,
        .segmentation ids segments record hvertices hsegments hids⟩
  | packed ids segments =>
      obtain ⟨_, haccepted⟩ := haccepted
      obtain ⟨_, hencode⟩ := Action.exists_of_step_map haccepted
      obtain ⟨words, hpack⟩ := Segmentation.exists_pack_of_step_encode hencode
      have hsize := Segmentation.length_storedWords words.toList
      rw [Array.length_toList] at hsize
      exact ⟨Segmentation.storedWords words.toList, some (4 * words.size),
        .packed ids (4 * words.size),
        (Segmentation.emits_encode hpack).map _,
        (Segmentation.consumes_decode hpack).bind_pure, hsize,
        .packed ids segments _⟩
  | index content =>
      obtain ⟨_, haccepted⟩ := haccepted
      obtain ⟨_, hwrite⟩ := Action.exists_of_step_map haccepted
      obtain ⟨bytes, decoded, hemits, hsize, hread, hperm, hsorted,
        hconstraints⟩ := PersistenceIndex.write_read hwrite
      exact ⟨bytes, some decoded.size, .index decoded, hemits.map _,
        hread.map _, hsize, .index content decoded hperm hsorted hconstraints⟩

theorem exists_emits_mapM {writes : List WriteStep} {reads : List ReadStep}
    (hmirrors : List.Forall₂ Mirrors writes reads)
    (haccepted : ∀ write ∈ writes, write.Accepted) :
    ∃ bytes reports readings,
      Writer.Emits (writes.mapM WriteStep.perform) bytes reports ∧
        Reader.Consumes (reads.mapM ReadStep.perform) bytes readings ∧
        bytes.length = (List.zipWith WriteStep.recordSize writes reports).sum ∧
        ReturnsAll writes reports readings := by
  induction hmirrors with
  | nil =>
      exact ⟨[], [], [], Writer.emits_pure [], Reader.consumes_pure [], rfl,
        .nil⟩
  | @cons write read writes reads hfirst _ ih =>
      obtain ⟨left, report, reading, hemit, hconsume, hleft, hreturn⟩ :=
        hfirst.exists_emits (haccepted write List.mem_cons_self)
      obtain ⟨right, reports, readings, hemits, hconsumes, hright, hreturns⟩ :=
        ih fun other hother => haccepted other (List.mem_cons_of_mem _ hother)
      refine ⟨left ++ right, report :: reports, reading :: readings, ?_, ?_, ?_,
        .cons hreturn hreturns⟩
      · rw [List.mapM_cons]
        exact hemit.bind hemits.bind_pure
      · rw [List.mapM_cons]
        exact hconsume.bind hconsumes.bind_pure
      · rw [List.length_append, hleft, hright, List.zipWith_cons_cons,
          List.sum_cons]

/-- Records of any kinds that are accepted one by one go through one stream
and come back as they were: the target holds as many bytes as were counted and
as the records report, and reading the same kinds in the same order finds all
of them, reports the same sizes and leaves just the bytes that follow. -/
theorem mixed_stream_round_trip {writes : List WriteStep}
    {reads : List ReadStep}
    (hmirrors : List.Forall₂ Mirrors writes reads)
    (haccepted : ∀ write ∈ writes, write.Accepted) :
    ∃ reports writer readings,
      (writes.mapM WriteStep.perform).step (.empty .unbounded) =
          (.ok reports, writer) ∧
        writer.content.length = writer.counted ∧
        writer.counted =
          (List.zipWith WriteStep.recordSize writes reports).sum ∧
        ReturnsAll writes reports readings ∧
        ∀ trailing, ∃ reader,
          (reads.mapM ReadStep.perform).step
              (.ofList (writer.content ++ trailing)) =
            (.ok readings, reader) ∧
          reader.unread = trailing ∧
          reader.counted = writer.counted := by
  obtain ⟨bytes, reports, readings, hemits, hconsumes, hsize, hreturns⟩ :=
    exists_emits_mapM hmirrors haccepted
  have hcontent : ((Writer.empty .unbounded).after bytes).content = bytes :=
    Writer.content_after _ _
  have hcounted : ((Writer.empty .unbounded).after bytes).counted =
      bytes.length :=
    Nat.zero_add _
  refine ⟨reports, (Writer.empty .unbounded).after bytes, readings,
    hemits _ rfl, ?_, ?_, hreturns, ?_⟩
  · rw [hcontent, hcounted]
  · rw [hcounted, hsize]
  · intro trailing
    have hread := hconsumes trailing 0
    rw [Nat.zero_add] at hread
    rw [hcontent, hcounted, Reader.ofList_eq_holding]
    exact ⟨_, hread, Reader.unread_holding _ _, rfl⟩

/-- A stream of all kinds.  The index names its vertices out of order, and one
of its values is not a number. -/
theorem mixed_stream_round_trip_all_kinds :
    ∃ reports writer readings,
      ([.segmentation [3, 0, 6] 7, .scalar ⟨0x7ff8000000000001⟩,
          .packed [1, 0, 1] 2,
          .index ⟨[⟨5, ⟨0x7ff0000000000001⟩⟩, ⟨-2, ⟨0⟩⟩], [⟨5, ⟨1⟩, 9⟩]⟩,
          .integer (-1), .word 7].mapM WriteStep.perform).step
            (.empty .unbounded) = (.ok reports, writer) ∧
        writer.content.length = writer.counted ∧
        ∀ trailing, ∃ reader,
          ([.segmentation (some 3), .scalar .mappingEntries, .packed 3 2,
              .index, .integer .mappingCount,
              .word .constraintCount].mapM ReadStep.perform).step
                (.ofList (writer.content ++ trailing)) =
            (.ok readings, reader) ∧
          reader.unread = trailing ∧
          reader.counted = writer.counted := by
  have hseven : Segmentation.pack [3, 0, 6] 7 =
      .ok (Segmentation.wordsOf 3 [3, 0, 6]) :=
    Segmentation.pack_eq_ok_iff.mpr ⟨3, by decide, by simp, rfl⟩
  have htwo : Segmentation.pack [1, 0, 1] 2 =
      .ok (Segmentation.wordsOf 2 [1, 0, 1]) :=
    Segmentation.pack_eq_ok_iff.mpr ⟨2, by decide, by simp, rfl⟩
  have hwidth : fieldWidth 7 = .ok 3 := by decide
  have hsegmentation : (WriteStep.segmentation [3, 0, 6] 7).Accepted :=
    WriteStep.accepted_of_emits
      ((@Segmentation.emits_write [3, 0, 6] 7 _ 3 3 rfl hwidth hseven).map _)
  have hpacked : (WriteStep.packed [1, 0, 1] 2).Accepted :=
    WriteStep.accepted_of_emits ((Segmentation.emits_encode htwo).map _)
  have hindex : (WriteStep.index
      ⟨[⟨5, ⟨0x7ff0000000000001⟩⟩, ⟨-2, ⟨0⟩⟩], [⟨5, ⟨1⟩, 9⟩]⟩).Accepted :=
    WriteStep.accepted_of_emits
      ((@PersistenceIndex.emits_write _ 2 1 rfl (by decide)).map _)
  obtain ⟨reports, writer, readings, hwrite, hlength, -, -, hread⟩ :=
    mixed_stream_round_trip
      (.cons (.segmentation [3, 0, 6] 7 (some 3) (by simp))
        (.cons (.scalar ⟨0x7ff8000000000001⟩ .mappingEntries)
          (.cons (.packed [1, 0, 1] 2)
            (.cons (.index _)
              (.cons (.integer (-1) .mappingCount)
                (.cons (.word 7 .constraintCount) .nil))))))
      (by
        intro write hwrite
        simp only [List.mem_cons, List.not_mem_nil, or_false] at hwrite
        rcases hwrite with rfl | rfl | rfl | rfl | rfl | rfl
        · exact hsegmentation
        · exact WriteStep.accepted_of_emits (Writer.emits_put _).bind_pure
        · exact hpacked
        · exact hindex
        · exact WriteStep.accepted_of_emits (Writer.emits_put _).bind_pure
        · exact WriteStep.accepted_of_emits (Writer.emits_put _).bind_pure)
  exact ⟨reports, writer, readings, hwrite, hlength, hread⟩

end PackedTopology
