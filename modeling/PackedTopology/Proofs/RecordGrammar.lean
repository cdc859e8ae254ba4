import PackedTopology.Proofs.ByteReader
import PackedTopology.Proofs.Unpacking
import PackedTopology.Segmentation.Record

/-!
# The grammar of a segmentation record

Every list of bytes is either a record, perhaps with more behind it, or is
refused for the first thing that is wrong with it: a header that is cut, more
vertices than the limit, no segments, or packed words that are cut.  The words
are read one by one, so the fault of a cut record names the first word that is
not there whole.
-/

namespace PackedTopology.Segmentation

variable {width : ℕ} (counted : ℕ)

/-! ## Words from bytes -/

theorem nextWord_reader (region : Region) :
    (WordSource.nextWord region : Action Reader UInt32) =
      Reader.take UInt32 region :=
  rfl

theorem step_takeWords_holding_of_le (count : ℕ) {rest : List UInt8}
    (henough : 4 * count ≤ rest.length) :
    ∃ words,
      (takeWords Reader count).step (.holding rest counted) =
          (.ok words, .holding (rest.drop (4 * count)) (counted + 4 * count)) ∧
        fieldNumber 32 words = LittleEndian.number (rest.take (4 * count)) := by
  induction count generalizing rest counted with
  | zero => exact ⟨[], rfl, rfl⟩
  | succ count ih =>
      have hword : 4 ≤ rest.length := by omega
      have hlength : (rest.take 4).length = 4 := by simp [hword]
      have hbytes : 4 + 4 * count = 4 * (count + 1) := by omega
      have hmore : 4 * count ≤ (rest.drop 4).length := by
        rw [List.length_drop]
        omega
      have htake :=
        Reader.step_takeWord_of_le .segmentationWords counted hword
      obtain ⟨words, hwords, hnumber⟩ := ih (counted + 4) hmore
      refine ⟨Field.ofBytes (rest.take 4) :: words, ?_, ?_⟩
      · rw [takeWords_succ, nextWord_reader, Action.step_bind_of_ok htake,
          Action.step_bind_of_ok hwords, Action.step_pure, List.drop_drop,
          Nat.add_assoc, hbytes]
      · have hsplit := LittleEndian.number_append (rest.take 4)
          ((rest.drop 4).take (4 * count))
        rw [← List.take_add, hbytes, hlength] at hsplit
        rw [fieldNumber_cons, hnumber, Field.toNat_ofBytes_word hlength, hsplit]
        rfl

theorem step_takeWords_holding_of_lt (count : ℕ) {rest : List UInt8}
    (hshort : rest.length < 4 * count) :
    (takeWords Reader count).step (.holding rest counted) =
      (.error (.incomplete .segmentationWords
          (counted + 4 * (rest.length / 4)) 4),
        .holding [] (counted + 4 * (rest.length / 4))) := by
  induction count generalizing rest counted with
  | zero => omega
  | succ count ih =>
      rw [takeWords_succ, nextWord_reader]
      by_cases hword : rest.length < 4
      · have hnone : rest.length / 4 = 0 := Nat.div_eq_of_lt hword
        have htake :=
          Reader.step_takeWord_of_lt .segmentationWords counted hword
        rw [Action.step_bind_of_error htake, hnone]
        rfl
      · have hle : 4 ≤ rest.length := Nat.le_of_not_lt hword
        have htake :=
          Reader.step_takeWord_of_le .segmentationWords counted hle
        have hrest : (rest.drop 4).length < 4 * count := by
          rw [List.length_drop]
          omega
        have hoffset : counted + 4 + 4 * ((rest.drop 4).length / 4) =
            counted + 4 * (rest.length / 4) := by
          rw [List.length_drop]
          omega
        have hwords := ih (counted + 4) hrest
        rw [hoffset] at hwords
        rw [Action.step_bind_of_ok htake, Action.step_bind_of_error hwords]

theorem step_decode_holding_of_le {segments : ℕ}
    (hwidth : fieldWidth segments = .ok width) (vertices : ℕ)
    {rest : List UInt8}
    (henough : 4 * wordCount vertices width ≤ rest.length) :
    (decode vertices segments : Action Reader (List UInt32 × ℕ)).step
        (.holding rest counted) =
      (.ok (fieldsOf width vertices (LittleEndian.number rest),
          4 * wordCount vertices width),
        .holding (rest.drop (4 * wordCount vertices width))
          (counted + 4 * wordCount vertices width)) := by
  obtain ⟨words, hwords, hnumber⟩ :=
    step_takeWords_holding_of_le counted (wordCount vertices width) henough
  have hbits : vertices * width ≤ 4 * wordCount vertices width * 8 := by
    have hle := le_wordCount_mul vertices width
    omega
  rw [decode_eq, hwidth, Action.check_ok_bind, Action.step_bind_of_ok hwords,
    Action.step_pure, hnumber, LittleEndian.number_take,
    fieldsOf_mod _ _ hbits]

theorem step_decode_holding_of_lt {segments : ℕ}
    (hwidth : fieldWidth segments = .ok width) (vertices : ℕ)
    {rest : List UInt8}
    (hshort : rest.length < 4 * wordCount vertices width) :
    (decode vertices segments : Action Reader (List UInt32 × ℕ)).step
        (.holding rest counted) =
      (.error (.incomplete .segmentationWords
          (counted + 4 * (rest.length / 4)) 4),
        .holding [] (counted + 4 * (rest.length / 4))) := by
  have hwords := step_takeWords_holding_of_lt counted _ hshort
  rw [decode_eq, hwidth, Action.check_ok_bind,
    Action.step_bind_of_error hwords]

theorem step_decode_of_error {σ : Type} [WordSource σ] {segments : ℕ}
    {fault : Fault} (hwidth : fieldWidth segments = .error fault)
    (vertices : ℕ) (source : σ) :
    (decode vertices segments).step source = (.error fault, source) := by
  rw [decode_eq, hwidth]
  rfl

/-! ## Headers from bytes -/

/-- The vertex count that a list of bytes starts with. -/
def declaredVertices (bytes : List UInt8) : ℕ :=
  LittleEndian.number (bytes.take 4)

/-- The segment count behind it. -/
def declaredSegments (bytes : List UInt8) : ℕ :=
  LittleEndian.number ((bytes.drop 4).take 4)

variable {bytes : List UInt8}

theorem declaredSegments_lt (bytes : List UInt8) :
    declaredSegments bytes < 2 ^ 32 := by
  rw [declaredSegments, LittleEndian.number_take]
  exact Nat.mod_lt _ (Nat.two_pow_pos _)

theorem step_header_of_lt_four (hshort : bytes.length < 4) :
    Header.read.step (.holding bytes counted) =
      (.error (.incomplete .segmentationHeader counted 4),
        .holding [] counted) := by
  have hvertices :=
    Reader.step_takeWord_of_lt .segmentationHeader counted hshort
  rw [Header.read, Action.step_bind_of_error hvertices]

theorem step_header_of_lt_eight
    (hfirst : 4 ≤ bytes.length)
    (hshort : bytes.length < 8) :
    Header.read.step (.holding bytes counted) =
      (.error (.incomplete .segmentationHeader (counted + 4) 4),
        .holding [] (counted + 4)) := by
  have hrest : (bytes.drop 4).length < 4 := by
    rw [List.length_drop]
    omega
  have hvertices :=
    Reader.step_takeWord_of_le .segmentationHeader counted hfirst
  have hsegments :=
    Reader.step_takeWord_of_lt .segmentationHeader (counted + 4) hrest
  rw [Header.read, Action.step_bind_of_ok hvertices,
    Action.step_bind_of_error hsegments]

theorem step_header_of_lt (hshort : bytes.length < 8) :
    ∃ offset after,
      Header.read.step (.holding bytes counted) =
        (.error (.incomplete .segmentationHeader offset 4), after) := by
  rcases Nat.lt_or_ge bytes.length 4 with hfirst | hfirst
  · exact ⟨_, _, step_header_of_lt_four counted hfirst⟩
  · exact ⟨_, _, step_header_of_lt_eight counted hfirst hshort⟩

theorem step_header_of_le (hwhole : 8 ≤ bytes.length) :
    ∃ header,
      Header.read.step (.holding bytes counted) =
          (.ok header, .holding (bytes.drop 8) (counted + 8)) ∧
        header.vertices.toNat = declaredVertices bytes ∧
        header.segments.toNat = declaredSegments bytes := by
  have hfirst : 4 ≤ bytes.length := by omega
  have hsecond : 4 ≤ (bytes.drop 4).length := by
    rw [List.length_drop]
    omega
  have hvertices :=
    Reader.step_takeWord_of_le .segmentationHeader counted hfirst
  have hsegments :=
    Reader.step_takeWord_of_le .segmentationHeader (counted + 4) hsecond
  refine ⟨⟨Field.ofBytes (bytes.take 4),
    Field.ofBytes ((bytes.drop 4).take 4)⟩, ?_, ?_, ?_⟩
  · rw [Header.read, Action.step_bind_of_ok hvertices,
      Action.step_bind_of_ok hsegments, Action.step_pure, List.drop_drop]
  · exact Field.toNat_ofBytes_word (by simp [hfirst])
  · exact Field.toNat_ofBytes_word (by simpa using hsecond)

/-! ## Records -/

/-- Reading a record, from its header on. -/
def readBody (header : Header) : Action Reader Record := do
  let (ids, packed) ← decode header.vertices.toNat header.segments.toNat
  return ⟨header, ids, Header.size + packed⟩

/-- Refuses more vertices than the limit, if there is one. -/
def withinLimit (limit : Option ℕ) (declared : ℕ) : Except Fault Unit :=
  match limit with
  | none => .ok ()
  | some bound =>
      if bound < declared then .error (.limitExceeded declared bound) else .ok ()

theorem withinLimit_of_le {limit : Option ℕ} {declared : ℕ}
    (hlimit : ∀ bound ∈ limit, declared ≤ bound) :
    withinLimit limit declared = .ok () := by
  cases limit with
  | none => rfl
  | some bound => exact if_neg (Nat.not_lt_of_le (hlimit bound rfl))

theorem withinLimit_of_lt {bound declared : ℕ} (hlimit : bound < declared) :
    withinLimit (some bound) declared =
      .error (.limitExceeded declared bound) :=
  if_pos hlimit

theorem withinLimit_ne_incomplete (limit : Option ℕ) (declared : ℕ)
    (region : Region) (offset needed : ℕ) :
    withinLimit limit declared ≠ .error (.incomplete region offset needed) := by
  cases limit with
  | none => simp [withinLimit]
  | some bound =>
      simp only [withinLimit]
      split <;> simp

theorem read_eq (limit : Option ℕ) :
    read limit = Header.read >>= fun header =>
      Action.check (withinLimit limit header.vertices.toNat) >>= fun _ =>
        readBody header := by
  unfold read
  congr 1
  funext header
  cases limit with
  | none => rfl
  | some bound =>
      by_cases hbound : bound < header.vertices.toNat
      · simp only [withinLimit, if_pos hbound]
        rfl
      · simp only [withinLimit, if_neg hbound]
        rfl

section

variable {reader after : Reader} {header : Header} {fault : Fault}

theorem step_readBody_of_error
    (hdecode :
      (decode header.vertices.toNat header.segments.toNat).step reader =
        (.error fault, after)) :
    (readBody header).step reader = (.error fault, after) := by
  rw [readBody, Action.step_bind_of_error hdecode]

theorem step_readBody_of_ok {ids : List UInt32} {packed : ℕ}
    (hdecode :
      (decode header.vertices.toNat header.segments.toNat).step reader =
        (.ok (ids, packed), after)) :
    (readBody header).step reader =
      (.ok ⟨header, ids, Header.size + packed⟩, after) := by
  rw [readBody, Action.step_bind_of_ok hdecode, Action.step_pure]

theorem step_read_of_error
    (hheader : Header.read.step reader = (.error fault, after))
    (limit : Option ℕ) :
    (read limit).step reader = (.error fault, after) := by
  rw [read, Action.step_bind_of_error hheader]

theorem step_read_of_admitted {limit : Option ℕ}
    (hheader : Header.read.step reader = (.ok header, after))
    (hlimit : ∀ bound ∈ limit, header.vertices.toNat ≤ bound) :
    (read limit).step reader = (readBody header).step after := by
  rw [read_eq, Action.step_bind_of_ok hheader, withinLimit_of_le hlimit,
    Action.check_ok_bind]

theorem step_read_of_lt {limit : ℕ}
    (hheader : Header.read.step reader = (.ok header, after))
    (hlimit : limit < header.vertices.toNat) :
    (read (some limit)).step reader =
      (.error (.limitExceeded header.vertices.toNat limit), after) := by
  rw [read_eq, Action.step_bind_of_ok hheader, withinLimit_of_lt hlimit]
  rfl

end

/-! ## The outcome of reading a record -/

theorem step_readBody_holding (header : Header) {rest : List UInt8}
    (hwidth : fieldWidth header.segments.toNat = .ok width) :
    (readBody header).step (.holding rest counted) =
      if 4 * wordCount header.vertices.toNat width ≤ rest.length then
        (.ok ⟨header,
            fieldsOf width header.vertices.toNat (LittleEndian.number rest),
            8 + 4 * wordCount header.vertices.toNat width⟩,
          .holding (rest.drop (4 * wordCount header.vertices.toNat width))
            (counted + 4 * wordCount header.vertices.toNat width))
      else
        (.error (.incomplete .segmentationWords
            (counted + 4 * (rest.length / 4)) 4),
          .holding [] (counted + 4 * (rest.length / 4))) := by
  by_cases henough : 4 * wordCount header.vertices.toNat width ≤ rest.length
  · have hdecode := step_decode_holding_of_le counted hwidth _ henough
    rw [if_pos henough, step_readBody_of_ok hdecode]
    rfl
  · have hshort := Nat.lt_of_not_le henough
    have hdecode := step_decode_holding_of_lt counted hwidth _ hshort
    rw [if_neg henough, step_readBody_of_error hdecode]

theorem step_readBody_of_no_segments {header : Header}
    (hsegments : header.segments.toNat = 0) (reader : Reader) :
    (readBody header).step reader = (.error (.undefinedWidth 0), reader) := by
  have hwidth : fieldWidth header.segments.toNat =
      .error (.undefinedWidth 0) := by
    rw [hsegments]
    rfl
  exact step_readBody_of_error (step_decode_of_error hwidth _ _)

/-- The reasons for which a list of bytes is refused as a record.  The width
of a word and the range of a count are not among them. -/
theorem fault_of_read {limit : Option ℕ} {fault : Fault}
    (hread : ((read limit).step (.ofList bytes)).1 = .error fault) :
    (∃ region offset, fault = .incomplete region offset 4) ∨
      (∃ declared bound, fault = .limitExceeded declared bound) ∨
      fault = .undefinedWidth 0 := by
  rw [Reader.ofList_eq_holding] at hread
  rcases Nat.lt_or_ge bytes.length 8 with hshort | hwhole
  · obtain ⟨offset, after, hheader⟩ := step_header_of_lt 0 hshort
    rw [step_read_of_error hheader] at hread
    exact .inl ⟨_, _, (Except.error.inj hread).symm⟩
  obtain ⟨header, hheader, -, -⟩ := step_header_of_le 0 hwhole
  by_cases hlimit : ∀ bound ∈ limit, header.vertices.toNat ≤ bound
  · rw [step_read_of_admitted hheader hlimit] at hread
    by_cases hsegments : header.segments.toNat = 0
    · rw [step_readBody_of_no_segments hsegments] at hread
      exact .inr (.inr (Except.error.inj hread).symm)
    · obtain ⟨width, hwidth⟩ :=
        exists_fieldWidth (Nat.pos_of_ne_zero hsegments)
          header.segments.toNat_lt
      rw [step_readBody_holding _ _ hwidth] at hread
      split at hread
      · cases hread
      · exact .inl ⟨_, _, (Except.error.inj hread).symm⟩
  · simp only [not_forall, Nat.not_le] at hlimit
    obtain ⟨bound, hbound, hexceeded⟩ := hlimit
    obtain rfl : limit = some bound := hbound
    rw [step_read_of_lt hheader hexceeded] at hread
    exact .inr (.inl ⟨_, _, (Except.error.inj hread).symm⟩)

theorem step_read_none_eq (bytes : List UInt8) {limit : ℕ}
    (hlimit : 8 ≤ bytes.length → declaredVertices bytes ≤ limit) :
    (read none).step (.ofList bytes) =
      (read (some limit)).step (.ofList bytes) := by
  rw [Reader.ofList_eq_holding]
  rcases Nat.lt_or_ge bytes.length 8 with hshort | hwhole
  · obtain ⟨offset, after, hheader⟩ := step_header_of_lt 0 hshort
    rw [step_read_of_error hheader, step_read_of_error hheader]
  obtain ⟨header, hheader, hvertices, -⟩ := step_header_of_le 0 hwhole
  have hadmitted : ∀ bound ∈ some limit, header.vertices.toNat ≤ bound := by
    simpa [hvertices] using hlimit hwhole
  rw [step_read_of_admitted hheader hadmitted,
    step_read_of_admitted hheader (by simp)]

/-- A whole header within the limit whose segments have a width: the words
that its fields reach into decide. -/
theorem step_read_of_width {limit : ℕ}
    (hwhole : 8 ≤ bytes.length)
    (hlimit : declaredVertices bytes ≤ limit)
    (hwidth : fieldWidth (declaredSegments bytes) = .ok width) :
    ∃ header : Header,
      header.vertices.toNat = declaredVertices bytes ∧
        header.segments.toNat = declaredSegments bytes ∧
        (read (some limit)).step (.ofList bytes) =
          if 4 * wordCount (declaredVertices bytes) width ≤
              bytes.length - 8 then
            (.ok ⟨header,
                fieldsOf width (declaredVertices bytes)
                  (LittleEndian.number (bytes.drop 8)),
                8 + 4 * wordCount (declaredVertices bytes) width⟩,
              .holding
                (bytes.drop (8 + 4 * wordCount (declaredVertices bytes) width))
                (8 + 4 * wordCount (declaredVertices bytes) width))
          else
            (.error (.incomplete .segmentationWords
                (8 + 4 * ((bytes.length - 8) / 4)) 4),
              .holding [] (8 + 4 * ((bytes.length - 8) / 4))) := by
  obtain ⟨header, hheader, hvertices, hsegments⟩ := step_header_of_le 0 hwhole
  rw [← hsegments] at hwidth
  have hadmitted : ∀ bound ∈ some limit, header.vertices.toNat ≤ bound := by
    simpa [hvertices] using hlimit
  have hbody := @step_readBody_holding width 8 header (bytes.drop 8) hwidth
  rw [List.length_drop, List.drop_drop, hvertices] at hbody
  refine ⟨header, hvertices, hsegments, ?_⟩
  rw [Reader.ofList_eq_holding, step_read_of_admitted hheader hadmitted,
    Nat.zero_add, hbody]

/-- Reading a record from any bytes: which of the refusals comes first, and
where, and what is found if there is none. -/
theorem read_outcome (limit : ℕ) (bytes : List UInt8) :
    (bytes.length < 4 →
      (read (some limit)).step (.ofList bytes) =
        (.error (.incomplete .segmentationHeader 0 4), .holding [] 0)) ∧
    (4 ≤ bytes.length → bytes.length < 8 →
      (read (some limit)).step (.ofList bytes) =
        (.error (.incomplete .segmentationHeader 4 4), .holding [] 4)) ∧
    (8 ≤ bytes.length → limit < declaredVertices bytes →
      (read (some limit)).step (.ofList bytes) =
        (.error (.limitExceeded (declaredVertices bytes) limit),
          .holding (bytes.drop 8) 8)) ∧
    (8 ≤ bytes.length → declaredVertices bytes ≤ limit →
      declaredSegments bytes = 0 →
      (read (some limit)).step (.ofList bytes) =
        (.error (.undefinedWidth 0), .holding (bytes.drop 8) 8)) ∧
    (8 ≤ bytes.length → declaredVertices bytes ≤ limit →
      declaredSegments bytes ≠ 0 →
      ∃ width words,
        fieldWidth (declaredSegments bytes) = .ok width ∧
        words = declaredVertices bytes * width ⌈/⌉ 32 ∧
        (bytes.length - 8 < 4 * words →
          (read (some limit)).step (.ofList bytes) =
            (.error (.incomplete .segmentationWords
                (8 + 4 * ((bytes.length - 8) / 4)) 4),
              .holding [] (8 + 4 * ((bytes.length - 8) / 4)))) ∧
        (4 * words ≤ bytes.length - 8 →
          ∃ record,
            (read (some limit)).step (.ofList bytes) =
                (.ok record,
                  .holding (bytes.drop (8 + 4 * words)) (8 + 4 * words)) ∧
              record.header.vertices.toNat = declaredVertices bytes ∧
              record.header.segments.toNat = declaredSegments bytes ∧
              record.size = 8 + 4 * words ∧
              record.ids.length = declaredVertices bytes ∧
              ∀ (i : ℕ) (hi : i < record.ids.length),
                record.ids[i].toNat =
                  LittleEndian.number (bytes.drop 8) / 2 ^ (i * width) %
                    2 ^ width)) ∧
    (∀ (anyLimit : Option ℕ) (width segments count : ℕ) (region : Region),
      ((read anyLimit).step (.ofList bytes)).1 ≠
          .error (.unsupportedWidth width segments) ∧
        ((read anyLimit).step (.ofList bytes)).1 ≠
          .error (.countOverflow region count)) ∧
    ((8 ≤ bytes.length → declaredVertices bytes ≤ limit) →
      (read none).step (.ofList bytes) =
        (read (some limit)).step (.ofList bytes)) := by
  refine ⟨?_, ?_, ?_, ?_, ?_, ?_, step_read_none_eq bytes⟩
  · intro hfirst
    exact step_read_of_error (step_header_of_lt_four 0 hfirst) _
  · intro hfirst hsecond
    exact step_read_of_error (step_header_of_lt_eight 0 hfirst hsecond) _
  · intro hwhole hlimit
    obtain ⟨header, hheader, hvertices, -⟩ := step_header_of_le 0 hwhole
    rw [← hvertices] at hlimit ⊢
    exact step_read_of_lt hheader hlimit
  · intro hwhole hlimit hnone
    obtain ⟨header, hheader, hvertices, hsegments⟩ := step_header_of_le 0 hwhole
    rw [← hvertices] at hlimit
    rw [← hsegments] at hnone
    have hadmitted : ∀ bound ∈ some limit, header.vertices.toNat ≤ bound := by
      simpa using hlimit
    rw [Reader.ofList_eq_holding, step_read_of_admitted hheader hadmitted,
      step_readBody_of_no_segments hnone]
  · intro hwhole hlimit hsome
    obtain ⟨width, hwidth⟩ :=
      exists_fieldWidth (Nat.pos_of_ne_zero hsome) (declaredSegments_lt bytes)
    obtain ⟨header, hvertices, hsegments, hread⟩ :=
      step_read_of_width hwhole hlimit hwidth
    rw [wordCount_eq_ceilDiv] at hread
    refine ⟨width, _, hwidth, rfl, ?_, ?_⟩
    · intro hshort
      rw [if_neg (Nat.not_le_of_lt hshort)] at hread
      exact hread
    · intro henough
      rw [if_pos henough] at hread
      refine ⟨_, hread, hvertices, hsegments, rfl, length_fieldsOf _ _, ?_⟩
      intro i hi
      exact toNat_getElem_fieldsOf (fieldWidth_le hwidth) _ _ i hi
  · intro anyLimit width segments count region
    refine ⟨?_, ?_⟩
    · intro hread
      obtain ⟨_, _, h⟩ | ⟨_, _, h⟩ | h := fault_of_read hread
      all_goals cases h
    · intro hread
      obtain ⟨_, _, h⟩ | ⟨_, _, h⟩ | h := fault_of_read hread
      all_goals cases h

end PackedTopology.Segmentation
