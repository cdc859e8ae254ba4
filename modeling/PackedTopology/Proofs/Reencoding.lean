import PackedTopology.Proofs.SegmentationRoundTrip

/-!
# Packing again what was read

Unpacking leaves out the bits behind the last field and keeps every other bit
of the packed words.  Packing the ids again therefore gives the same words with
zeros in these places.  The bytes of a record need not come from a packer: its
ids have room for more than the segment count admits, and an id that is not
below the count is refused when it is packed.
-/

namespace PackedTopology.Segmentation

/-! ## The words of a record -/

/-- The fields of packed ids in some words. -/
structure CutFrom (ids : List UInt32) (vertices segments width : ℕ)
    (payload : List UInt32) : Prop where
  width_eq : fieldWidth segments = .ok width
  length_eq : payload.length = wordCount vertices width
  ids_eq : ids = fieldsOf width vertices (fieldNumber 32 payload)

variable {ids payload : List UInt32} {vertices segments width : ℕ}

theorem exists_payload_of_decode {rest : List UInt8} {counted size : ℕ}
    {after : Reader}
    (hdecode : (decode vertices segments).step (.holding rest counted) =
      (.ok (ids, size), after)) :
    ∃ width payload more, CutFrom ids vertices segments width payload ∧
      rest = storedWords payload ++ more ∧ size = 4 * payload.length ∧
      after.unread = more := by
  cases hwidth : fieldWidth segments with
  | error fault =>
      rw [step_decode_of_error hwidth] at hdecode
      cases hdecode
  | ok width =>
      have hwords := (@Reader.decides_take UInt32 _ _ .segmentationWords).times
        (wordCount vertices width)
      rcases hwords.starts_or_stops rest with ⟨payload, more, hlength, hrest⟩ | hstop
      · obtain rfl : rest = storedWords payload ++ more := hrest
        rw [consumes_decode_words hwidth hlength more counted] at hdecode
        cases hdecode
        exact ⟨width, payload, more, ⟨hwidth, hlength, rfl⟩, rfl, rfl, rfl⟩
      · rw [decode_eq, hwidth, Action.check_ok_bind] at hdecode
        exact absurd hdecode (((hstop counted).bind_last _).ne_ok _ _)

theorem exists_payload_of_read {limit : Option ℕ} {bytes : List UInt8}
    {record : Record} {after : Reader}
    (hread : (read limit).step (.ofList bytes) = (.ok record, after)) :
    ∃ width payload more,
      CutFrom record.ids record.header.vertices.toNat
          record.header.segments.toNat width payload ∧
        bytes = storedHeader record.header ++ storedWords payload ++ more ∧
        record.size = Header.size + 4 * payload.length ∧
        after.unread = more := by
  rw [read_eq, Reader.ofList_eq_holding] at hread
  rcases decides_header.starts_or_stops bytes with ⟨header, rest, -, rfl⟩ | hstop
  · rw [Action.step_bind_of_ok (consumes_header header rest 0)] at hread
    cases hlimit : withinLimit limit header.vertices.toNat with
    | error fault =>
        rw [hlimit] at hread
        cases hread
    | ok _ =>
        rw [hlimit, Action.check_ok_bind, readBody, ← map_eq_pure_bind,
          Action.step_map] at hread
        rcases hdecode : (decode header.vertices.toNat
            header.segments.toNat).step (Reader.holding rest _) with
          ⟨fault | ⟨ids, size⟩, last⟩
        · rw [hdecode] at hread
          cases hread
        · rw [hdecode] at hread
          cases hread
          obtain ⟨width, payload, more, hcut, rfl, rfl, hmore⟩ :=
            exists_payload_of_decode hdecode
          exact ⟨width, payload, more, hcut, by simp, rfl, hmore⟩
  · exact absurd hread (((hstop 0).bind_last _).ne_ok _ _)

/-! ## Packing the ids again -/

section

variable {words : Array UInt32}

theorem CutFrom.wordsOf_eq (hcut : CutFrom ids vertices segments width payload)
    (hpack : pack ids segments = .ok words) :
    words.size = payload.length ∧
      ∀ bit, bitOf words.toList bit =
        (decide (bit < vertices * width) && bitOf payload bit) := by
  obtain ⟨hwidth, hlength, rfl⟩ := hcut
  obtain ⟨width, hagain, hids, rfl⟩ := pack_eq_ok_iff.mp hpack
  obtain rfl := Except.ok.inj (hwidth.symm.trans hagain)
  have hle := fieldWidth_le hwidth
  have hfields := fun id hid =>
    (hids id hid).trans (lt_two_pow_fieldWidth hwidth)
  constructor
  · rw [size_wordsOf hle hfields, length_fieldsOf, hlength]
  · intro bit
    rw [bitOf_eq_testBit, bitOf_eq_testBit, fieldNumber_wordsOf hle hfields,
      fieldNumber_fieldsOf hle, Nat.testBit_mod_two_pow]

theorem CutFrom.words_eq_iff (hcut : CutFrom ids vertices segments width payload)
    (hpack : pack ids segments = .ok words) :
    words.toList = payload ↔
      ∀ bit, vertices * width ≤ bit → bitOf payload bit = false := by
  obtain ⟨hsize, hbits⟩ := hcut.wordsOf_eq hpack
  constructor
  · rintro rfl bit hbit
    rw [hbits bit, decide_eq_false (Nat.not_lt_of_le hbit), Bool.false_and]
  · intro hzero
    apply eq_of_bitOf_eq (by simpa using hsize)
    intro bit
    rw [hbits bit]
    by_cases hbit : bit < vertices * width
    · rw [decide_eq_true hbit, Bool.true_and]
    · rw [hzero bit (Nat.le_of_not_lt hbit), Bool.and_false]

end

theorem storedWords_inj {left right : List UInt32} :
    storedWords left = storedWords right ↔ left = right := by
  constructor
  · intro hstored
    have hlength := congrArg List.length hstored
    have hnumber := congrArg LittleEndian.number hstored
    rw [length_storedWords, length_storedWords] at hlength
    rw [number_storedWords, number_storedWords] at hnumber
    exact eq_of_fieldNumber_words_eq (by omega) hnumber
  · exact congrArg storedWords

/-- Whatever bytes a record is read from, the words in it that hold its ids are
as many as its header says, and packing the ids again puts zeros behind the last
field and changes nothing else.  So writing them gives back the bytes that were
read exactly if these places held zeros before.  If an id is not below
the segment count, packing refuses the first such id. -/
theorem pack_of_read {limit : Option ℕ} {bytes : List UInt8} {record : Record}
    {after : Reader}
    (hread : (read limit).step (.ofList bytes) = (.ok record, after)) :
    let vertices := record.header.vertices.toNat
    let segments := record.header.segments.toNat
    let ids := record.ids
    ∃ (width : ℕ) (payload : List UInt32),
      record.header.width = .ok width ∧
      record.header.words = .ok payload.length ∧
      record.size = Header.size + 4 * payload.length ∧
      bytes.take record.size =
        storedHeader record.header ++ payload.flatMap Field.bytes ∧
      after.unread = bytes.drop record.size ∧
      ((∀ id ∈ ids, id.toNat < segments) →
        ∃ words written,
          pack ids segments = .ok words ∧
          words.size = payload.length ∧
          (∀ bit, bitOf words.toList bit =
            (decide (bit < vertices * width) && bitOf payload bit)) ∧
          Writer.Emits (write ids segments) written record.size ∧
          (written = bytes.take record.size ↔
            ∀ bit, vertices * width ≤ bit → bitOf payload bit = false)) ∧
      ((∃ id ∈ ids, segments ≤ id.toNat) →
        ∃ (index : ℕ) (hindex : index < ids.length),
          segments ≤ ids[index].toNat ∧
          (∀ (earlier : ℕ) (hearlier : earlier < index),
            ids[earlier].toNat < segments) ∧
          pack ids segments =
            .error (.idOutOfRange index ids[index] segments)) := by
  intro vertices segments ids
  obtain ⟨width, payload, more, hcut, rfl, hsize, hmore⟩ :=
    exists_payload_of_read hread
  have hwords : record.header.words = .ok payload.length := by
    rw [Header.words, Header.width, hcut.width_eq, hcut.length_eq]
    rfl
  have hlength : (storedHeader record.header ++ storedWords payload).length =
      record.size := by
    rw [List.length_append, length_storedHeader, length_storedWords, hsize]
  rw [List.take_left' hlength, List.drop_left' hlength]
  refine ⟨width, payload, hcut.width_eq, hwords, hsize, rfl, hmore, ?_, ?_⟩
  · intro hids
    have hpack := pack_eq_ok_iff.mpr ⟨width, hcut.width_eq, hids, rfl⟩
    obtain ⟨hcount, hbits⟩ := hcut.wordsOf_eq hpack
    have hcountIds : ids.length = record.header.vertices.toNat := by
      simp [ids, hcut.ids_eq]
    have hvertices : countField .segmentationHeader ids.length =
        .ok record.header.vertices := by
      rw [hcountIds, countField_toNat]
    have hemits := emits_write hvertices hcut.width_eq hpack
    rw [UInt32.ofNat_toNat, hcount, ← hsize] at hemits
    refine ⟨_, _, hpack, hcount, hbits, hemits, ?_⟩
    rw [List.append_cancel_left_eq, storedWords_inj]
    exact hcut.words_eq_iff hpack
  · rintro ⟨id, hid, hlarge⟩
    apply exists_pack_error hcut.width_eq
    intro hids
    exact Nat.not_lt_of_le hlarge (hids id hid)

/-- Three fields of three bits with a stray bit high above them, and three
fields the last of which has no segment. -/
theorem pack_of_read_stray :
    (read none).step (.ofList [3, 0, 0, 0, 5, 0, 0, 0, 17, 1, 0, 128, 7]) =
        (.ok ⟨⟨3, 5⟩, [1, 2, 4], 12⟩, .holding [7] 12) ∧
      (∃ written, Writer.Emits (write [1, 2, 4] 5) written 12 ∧
        written ≠ [3, 0, 0, 0, 5, 0, 0, 0, 17, 1, 0, 128]) ∧
      (read (some 3)).step (.ofList [3, 0, 0, 0, 5, 0, 0, 0, 209, 1, 0, 0]) =
        (.ok ⟨⟨3, 5⟩, [1, 2, 7], 12⟩, .holding [] 12) ∧
      pack [1, 2, 7] 5 = .error (.idOutOfRange 2 7 5) := by
  have hstray :
      (read none).step (.ofList [3, 0, 0, 0, 5, 0, 0, 0, 17, 1, 0, 128, 7]) =
        (.ok ⟨⟨3, 5⟩, [1, 2, 4], 12⟩, .holding [7] 12) := by with_unfolding_all rfl
  have hlarge :
      (read (some 3)).step (.ofList [3, 0, 0, 0, 5, 0, 0, 0, 209, 1, 0, 0]) =
        (.ok ⟨⟨3, 5⟩, [1, 2, 7], 12⟩, .holding [] 12) := by with_unfolding_all rfl
  refine ⟨hstray, ?_, hlarge, ?_⟩
  · obtain ⟨width, payload, hwidth, -, -, hbytes, -, hgood, -⟩ :=
      pack_of_read hstray
    obtain rfl : 3 = width := Except.ok.inj hwidth
    have hstored : [3, 0, 0, 0, 5, 0, 0, 0, 17, 1, 0, 128] =
        storedHeader ⟨3, 5⟩ ++ storedWords [2147483921] := by with_unfolding_all rfl
    have hpayload : payload = [2147483921] :=
      storedWords_inj.mp (List.append_cancel_left (hbytes.symm.trans hstored))
    obtain ⟨words, written, -, -, -, hemits, hsame⟩ := hgood (by simp)
    refine ⟨written, hemits, ?_⟩
    intro hwritten
    have hzero := hsame.mp hwritten 31 (by decide)
    rw [hpayload] at hzero
    exact absurd hzero (by decide)
  · obtain ⟨_, _, -, -, -, -, -, -, hbad⟩ := pack_of_read hlarge
    obtain ⟨index, hindex, hsegments, -, hpack⟩ := hbad ⟨7, by simp, by decide⟩
    rcases index with _ | _ | _ | index
    · simp at hsegments
    · simp at hsegments
    · exact hpack
    · exact absurd hindex (by simp)

end PackedTopology.Segmentation
