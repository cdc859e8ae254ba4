import PackedTopology.Proofs.Consumption
import PackedTopology.Proofs.Emission
import PackedTopology.Proofs.FieldGrammar
import PackedTopology.Proofs.Packing
import PackedTopology.Proofs.RecordGrammar

/-!
# Segmentations through a stream

Packing emits the stored form of the packed words, and unpacking as many ids
of the same segment count consumes it.  A record puts its header in front, so
that reading it needs to be told nothing.
-/

namespace PackedTopology.Segmentation

/-! ## Packed ids -/

/-- The stored form of a list of words. -/
def storedWords (words : List UInt32) : List UInt8 :=
  words.flatMap Field.bytes

theorem length_storedWords (words : List UInt32) :
    (storedWords words).length = 4 * words.length := by
  induction words with
  | nil => rfl
  | cons word words ih =>
      have hword : (Field.bytes word).length = 4 := Field.length_bytes word
      rw [storedWords, List.flatMap_cons, List.length_append, ← storedWords, ih,
        hword, List.length_cons]
      omega

theorem number_storedWords (words : List UInt32) :
    LittleEndian.number (storedWords words) = fieldNumber 32 words := by
  induction words with
  | nil => rfl
  | cons word words ih =>
      have hlength : (Field.bytes word).length = 4 := Field.length_bytes word
      have hword : LittleEndian.number (Field.bytes word) = word.toNat :=
        Field.number_bytes word
      rw [storedWords, List.flatMap_cons, LittleEndian.number_append,
        ← storedWords, ih, hword, hlength, fieldNumber_cons]
      rfl

variable {ids : List UInt32} {segments : ℕ} {words : Array UInt32}

theorem emits_encode (hpack : pack ids segments = .ok words) :
    Writer.Emits (encode ids segments) (storedWords words.toList)
      (4 * words.size) := by
  rw [encode, hpack, Action.check_ok_bind]
  exact (Writer.emits_putWords words.toList).bind_pure

theorem consumes_takeWords (payload : List UInt32) :
    Reader.Consumes (takeWords Reader payload.length) (storedWords payload)
      payload :=
  Reader.consumes_times (Reader.consumes_take .segmentationWords) payload

/-- Unpacking takes the words of all fields, whatever they say. -/
theorem consumes_decode_words {vertices width : ℕ} {payload : List UInt32}
    (hwidth : fieldWidth segments = .ok width)
    (hlength : payload.length = wordCount vertices width) :
    Reader.Consumes (decode vertices segments) (storedWords payload)
      (fieldsOf width vertices (fieldNumber 32 payload), 4 * payload.length) := by
  rw [decode_eq, hwidth, Action.check_ok_bind, ← hlength]
  exact (consumes_takeWords payload).bind_pure

theorem consumes_decode (hpack : pack ids segments = .ok words) :
    Reader.Consumes (decode ids.length segments) (storedWords words.toList)
      (ids, 4 * words.size) := by
  obtain ⟨width, hwidth, hids, rfl⟩ := pack_eq_ok_iff.mp hpack
  have hle : width ≤ 32 := fieldWidth_le hwidth
  have hfields : ∀ id ∈ ids, id.toNat < 2 ^ width :=
    fun id hid => (hids id hid).trans (lt_two_pow_fieldWidth hwidth)
  have hdecode := consumes_decode_words hwidth (size_wordsOf hle hfields)
  rwa [fieldNumber_wordsOf hle hfields, fieldsOf_fieldNumber hfields] at hdecode

theorem exists_pack_of_step_encode {σ : Type} [WordSink σ] {sink : σ}
    {reported : ℕ}
    (haccepted : ((encode ids segments).step sink).1 = .ok reported) :
    ∃ words, pack ids segments = .ok words := by
  rw [encode] at haccepted
  obtain ⟨words, hpack, -⟩ := Action.exists_of_step_check_bind haccepted
  exact ⟨words, hpack⟩

/-! ## Records -/

/-- The stored form of a header. -/
def storedHeader (header : Header) : List UInt8 :=
  Field.bytes header.vertices ++ Field.bytes header.segments

theorem length_storedHeader (header : Header) :
    (storedHeader header).length = Header.size := by
  rw [storedHeader, List.length_append, Field.length_bytes, Field.length_bytes]
  rfl

theorem emits_header (header : Header) :
    Writer.Emits header.write (storedHeader header) Header.size :=
  (Writer.emits_put header.vertices).bind
    (Writer.emits_put header.segments).bind_pure

theorem consumes_header (header : Header) :
    Reader.Consumes Header.read (storedHeader header) header :=
  (Reader.consumes_take _ header.vertices).bind
    (Reader.consumes_take _ header.segments).bind_pure

def headerSlots : List Slot :=
  [⟨.segmentationHeader, 4⟩, ⟨.segmentationHeader, 4⟩]

theorem decides_header :
    Reader.Decides headerSlots Header.read storedHeader fun _ => True where
  consumes header _ := consumes_header header
  length_stored header _ := length_storedHeader header
  starts_or_stops rest := by
    apply (@Reader.decides_take UInt32 _ _ .segmentationHeader).bind
    intro vertices more _ hrest
    apply (@Reader.decides_take UInt32 _ _ .segmentationHeader).bind
    intro segments last _ hmore
    left
    exact ⟨⟨vertices, segments⟩, last, trivial, by
      simp [hrest, hmore, storedHeader]⟩

theorem countField_eq_ok {region : Region} {count : ℕ} {field : UInt32}
    (hfield : countField region count = .ok field) : field.toNat = count := by
  unfold countField at hfield
  by_cases hcount : count < UInt32.size
  · rw [if_pos hcount] at hfield
    obtain rfl := Except.ok.inj hfield
    exact UInt32.toNat_ofNat_of_lt' hcount
  · rw [if_neg hcount] at hfield
    cases hfield

theorem countField_of_lt {count : ℕ} (hcount : count < 2 ^ 32)
    (region : Region) : countField region count = .ok (.ofNat count) :=
  if_pos hcount

theorem countField_of_le {count : ℕ} (hcount : 2 ^ 32 ≤ count)
    (region : Region) :
    countField region count = .error (.countOverflow region count) :=
  if_neg (Nat.not_lt_of_le hcount)

theorem countField_toNat (region : Region) (field : UInt32) :
    countField region field.toNat = .ok field := by
  rw [countField_of_lt field.toNat_lt, UInt32.ofNat_toNat]

theorem emits_write {vertices : UInt32} {width : ℕ}
    (hvertices : countField .segmentationHeader ids.length = .ok vertices)
    (hwidth : fieldWidth segments = .ok width)
    (hpack : pack ids segments = .ok words) :
    Writer.Emits (write ids segments)
      (storedHeader ⟨vertices, UInt32.ofNat segments⟩ ++
        storedWords words.toList)
      (Header.size + 4 * words.size) := by
  rw [write, hvertices, Action.check_ok_bind, hwidth, Action.check_ok_bind]
  exact (emits_header _).bind (emits_encode hpack).bind_pure

theorem consumes_read {header : Header} {limit : Option ℕ}
    (hvertices : header.vertices.toNat = ids.length)
    (hsegments : header.segments.toNat = segments)
    (hpack : pack ids segments = .ok words)
    (hlimit : ∀ bound ∈ limit, ids.length ≤ bound) :
    Reader.Consumes (read limit)
      (storedHeader header ++ storedWords words.toList)
      ⟨header, ids, Header.size + 4 * words.size⟩ := by
  have hadmitted : ∀ bound ∈ limit, header.vertices.toNat ≤ bound := by
    rw [hvertices]
    exact hlimit
  have hbody : Reader.Consumes (readBody header) (storedWords words.toList)
      ⟨header, ids, Header.size + 4 * words.size⟩ := by
    rw [readBody, hvertices, hsegments]
    exact (consumes_decode hpack).bind_pure
  intro rest counted
  rw [List.append_assoc,
    step_read_of_admitted (consumes_header header _ counted) hadmitted,
    hbody rest, List.length_append, Nat.add_assoc]

/-- What an accepted record puts on the target is what reading it takes, and
reading finds the counts, the ids and the size. -/
theorem write_read {reported : ℕ} {writer : Writer}
    (haccepted : ((write ids segments).step writer).1 = .ok reported) :
    ∃ bytes record,
      Writer.Emits (write ids segments) bytes record.size ∧
        bytes.length = record.size ∧
        (∀ limit : Option ℕ, (∀ bound ∈ limit, ids.length ≤ bound) →
          Reader.Consumes (read limit) bytes record) ∧
        record.header.vertices.toNat = ids.length ∧
        record.header.segments.toNat = segments ∧
        record.ids = ids := by
  rw [write] at haccepted
  obtain ⟨vertices, hvertices, haccepted⟩ :=
    Action.exists_of_step_check_bind haccepted
  obtain ⟨width, hwidth, haccepted⟩ :=
    Action.exists_of_step_check_bind haccepted
  obtain ⟨_, after, -, haccepted⟩ := Action.exists_of_step_bind_eq_ok haccepted
  obtain ⟨packed, _, hencode, -⟩ := Action.exists_of_step_bind_eq_ok haccepted
  obtain ⟨words, hpack⟩ :=
    exists_pack_of_step_encode (congrArg Prod.fst hencode)
  obtain ⟨-, hfits, -⟩ := fieldWidth_eq_ok_iff.mp hwidth
  have hcount : vertices.toNat = ids.length := countField_eq_ok hvertices
  have hsegments : (UInt32.ofNat segments).toNat = segments :=
    UInt32.toNat_ofNat_of_lt' hfits
  refine ⟨_, ⟨⟨vertices, UInt32.ofNat segments⟩, ids, _⟩,
    emits_write hvertices hwidth hpack, ?_, ?_, hcount, hsegments, rfl⟩
  · rw [List.length_append, length_storedHeader, length_storedWords,
      Array.length_toList]
  · intro limit hlimit
    exact consumes_read hcount hsegments hpack hlimit

end PackedTopology.Segmentation
