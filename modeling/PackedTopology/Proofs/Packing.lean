import PackedTopology.Proofs.Action
import PackedTopology.Proofs.BitQueue
import PackedTopology.Proofs.FieldNumber
import PackedTopology.Proofs.Width

/-!
# The layout of packed ids

While ids are packed, the words that went out and the bits that wait for the
next word together are the number of the ids so far.  Packing one more id
keeps this, whether or not a word becomes full, so the words of a whole
segmentation are the number of its ids, and only as many as their bits need.
-/

namespace PackedTopology.Segmentation

variable {width : ℕ}

/-- The words of a packer and the bits in its queue stand for the ids packed
so far, and less than a word of bits waits. -/
structure Packer.Holds (width : ℕ) (ids : List UInt32) (packer : Packer) :
    Prop where
  settled : packer.queue.Settled
  bits_eq : packer.words.size * 32 + packer.queue.held = ids.length * width
  number_eq :
    fieldNumber 32 packer.words.toList +
        2 ^ (packer.words.size * 32) * packer.queue.bits.toNat =
      fieldNumber width ids

theorem Packer.start_holds : Packer.Holds width [] .start :=
  ⟨BitQueue.empty_settled, by simp [start, BitQueue.empty], by
    simp [start, BitQueue.empty]⟩

/-- Before a full word is taken out, the new field is already part of the
number. -/
private theorem Packer.Holds.number_append {ids : List UInt32} {packer : Packer}
    (hholds : packer.Holds width ids) (hwidth : width ≤ 32) {id : UInt32}
    (hid : id.toNat < 2 ^ width) :
    fieldNumber 32 packer.words.toList +
        2 ^ (packer.words.size * 32) *
          (packer.queue.append id width).bits.toNat =
      fieldNumber width (ids ++ [id]) := by
  have hlast : fieldNumber width [id] = id.toNat := by
    rw [fieldNumber_cons, fieldNumber_nil, Nat.mul_zero, Nat.add_zero]
  rw [BitQueue.append_bits_toNat hholds.settled hid hwidth, fieldNumber_append,
    hlast, ← hholds.number_eq, ← hholds.bits_eq, pow_add]
  ring

theorem Packer.Holds.push {ids : List UInt32} {packer : Packer}
    (hholds : packer.Holds width ids) (hwidth : width ≤ 32) {id : UInt32}
    (hid : id.toNat < 2 ^ width) :
    (packer.push width id).Holds width (ids ++ [id]) := by
  have hheld : packer.queue.held < 32 := hholds.settled.held_lt
  have hbits := hholds.bits_eq
  have hnumber := hholds.number_append hwidth hid
  have hfilled := BitQueue.append_bits_lt hholds.settled hid hwidth
  have hlength : (ids ++ [id]).length * width = ids.length * width + width := by
    rw [List.length_append, List.length_singleton, Nat.succ_mul]
  by_cases hfull : packer.queue.held + width < wordBits
  · have hpush : packer.push width id =
        ⟨packer.words, packer.queue.append id width⟩ := by
      rw [Packer.push, BitQueue.takeWord_of_lt hfull]
    rw [hpush]
    refine ⟨BitQueue.settled_of_bits_lt hfull hfilled, ?_, hnumber⟩
    show packer.words.size * 32 + (packer.queue.held + width) = _
    rw [hlength]
    omega
  · have hle : wordBits ≤ (packer.queue.append id width).held :=
      Nat.le_of_not_lt hfull
    obtain ⟨word, rest, htake, hword, hrest, hheldRest⟩ :=
      BitQueue.takeWord_of_le hle
    have hpush : packer.push width id = ⟨packer.words.push word, rest⟩ := by
      rw [Packer.push, htake]
    rw [BitQueue.append_held] at hheldRest hle
    have hwordBits : 32 ≤ packer.queue.held + width := hle
    rw [hpush]
    refine ⟨BitQueue.settled_of_bits_lt ?_ ?_, ?_, ?_⟩
    · rw [hheldRest]
      show packer.queue.held + width - 32 < 32
      omega
    · rw [hrest, hheldRest]
      apply Nat.div_lt_of_lt_mul
      rwa [← pow_add, Nat.add_sub_cancel' hwordBits]
    · rw [hlength, hheldRest, Array.size_push]
      omega
    · have hsplit := Nat.mod_add_div
        (packer.queue.append id width).bits.toNat (2 ^ 32)
      rw [← hnumber, ← hsplit, ← hword, ← hrest, Array.toList_push,
        fieldNumber_append, Array.size_push, fieldNumber_cons, fieldNumber_nil,
        Array.length_toList, Nat.succ_mul, pow_add]
      ring

theorem Packer.pushAll_append (ids : List UInt32) (id : UInt32) :
    pushAll width (ids ++ [id]) = (pushAll width ids).push width id := by
  simp [pushAll]

theorem Packer.pushAll_holds (hwidth : width ≤ 32) {ids : List UInt32}
    (hids : ∀ id ∈ ids, id.toNat < 2 ^ width) :
    (pushAll width ids).Holds width ids := by
  induction ids using List.reverseRecOn with
  | nil => exact start_holds
  | append_singleton ids id ih =>
      have hbefore := ih fun other hother => hids other (by simp [hother])
      rw [pushAll_append]
      exact hbefore.push hwidth (hids id (by simp))

/-! ## The words of a segmentation -/

theorem size_wordsOf (hwidth : width ≤ 32) {ids : List UInt32}
    (hids : ∀ id ∈ ids, id.toNat < 2 ^ width) :
    (wordsOf width ids).size = wordCount ids.length width := by
  have hholds := Packer.pushAll_holds hwidth hids
  have hheld : (Packer.pushAll width ids).queue.held < 32 :=
    hholds.settled.held_lt
  have hbits := hholds.bits_eq
  unfold wordsOf Packer.finish wordCount wordBits
  by_cases hzero : (Packer.pushAll width ids).queue.held = 0
  · rw [if_pos hzero]
    omega
  · rw [if_neg hzero, Array.size_push]
    omega

theorem fieldNumber_wordsOf (hwidth : width ≤ 32) {ids : List UInt32}
    (hids : ∀ id ∈ ids, id.toNat < 2 ^ width) :
    fieldNumber 32 (wordsOf width ids).toList = fieldNumber width ids := by
  have hholds := Packer.pushAll_holds hwidth hids
  have hbits := hholds.settled.bits_lt
  have hheld : (Packer.pushAll width ids).queue.held < 32 :=
    hholds.settled.held_lt
  rw [← hholds.number_eq]
  unfold wordsOf Packer.finish
  by_cases hzero : (Packer.pushAll width ids).queue.held = 0
  · have hnone : (Packer.pushAll width ids).queue.bits.toNat = 0 := by
      rw [hzero] at hbits
      omega
    rw [if_pos hzero, hnone, Nat.mul_zero, Nat.add_zero]
  · have hword : (Packer.pushAll width ids).queue.bits.toNat < 2 ^ 32 :=
      hbits.trans_le (Nat.pow_le_pow_right (by decide) hheld.le)
    rw [if_neg hzero, Array.toList_push, fieldNumber_append, fieldNumber_cons,
      fieldNumber_nil, Array.length_toList, UInt64.toNat_toUInt32,
      Nat.mod_eq_of_lt hword, Nat.mul_zero, Nat.add_zero]

/-! ## Which segmentations are packed -/

theorem checkIds_eq_ok_iff {ids : List UInt32} {segments : ℕ} :
    checkIds ids segments = .ok () ↔ ∀ id ∈ ids, id.toNat < segments := by
  unfold checkIds
  cases hfind : ids.findIdx? fun id => segments ≤ id.toNat with
  | none =>
      rw [List.findIdx?_eq_none_iff] at hfind
      simpa using hfind
  | some index =>
      obtain ⟨hindex, hbad, -⟩ := List.findIdx?_eq_some_iff_getElem.mp hfind
      have hmem : ids[index] ∈ ids := List.getElem_mem hindex
      simp only [decide_eq_true_eq] at hbad
      simp only [reduceCtorEq, false_iff, not_forall]
      exact ⟨ids[index], hmem, Nat.not_lt_of_le hbad⟩

/-- The first id that is not below the segment count is refused. -/
theorem exists_pack_error {ids : List UInt32} {segments width : ℕ}
    (hwidth : fieldWidth segments = .ok width)
    (hbad : ¬ ∀ id ∈ ids, id.toNat < segments) :
    ∃ (index : ℕ) (hindex : index < ids.length),
      segments ≤ ids[index].toNat ∧
        (∀ (earlier : ℕ) (hearlier : earlier < index),
          ids[earlier].toNat < segments) ∧
        pack ids segments =
          .error (.idOutOfRange index ids[index] segments) := by
  rw [← checkIds_eq_ok_iff] at hbad
  unfold pack checkIds at *
  rw [hwidth]
  cases hfind : ids.findIdx? fun id => segments ≤ id.toNat with
  | none => simp [hfind] at hbad
  | some index =>
      obtain ⟨hindex, hlarge, hearlier⟩ :=
        List.findIdx?_eq_some_iff_getElem.mp hfind
      refine ⟨index, hindex, by simpa using hlarge, by simpa using hearlier, ?_⟩
      simp [bind, Except.bind, hindex]

theorem pack_eq_ok_iff {ids : List UInt32} {segments : ℕ}
    {words : Array UInt32} :
    pack ids segments = .ok words ↔
      ∃ width, fieldWidth segments = .ok width ∧
        (∀ id ∈ ids, id.toNat < segments) ∧ wordsOf width ids = words := by
  unfold pack
  cases hwidth : fieldWidth segments with
  | error fault => simp [bind, Except.bind]
  | ok width =>
      cases hcheck : checkIds ids segments with
      | error fault =>
          have hbad : ¬ ∀ id ∈ ids, id.toNat < segments := by
            rw [← checkIds_eq_ok_iff, hcheck]
            simp
          simp [bind, Except.bind, hbad]
      | ok checked =>
          have hgood : ∀ id ∈ ids, id.toNat < segments :=
            checkIds_eq_ok_iff.mp hcheck
          simp only [bind, Except.bind, pure, Except.pure, Except.ok.injEq]
          constructor
          · intro hwords
            exact ⟨width, rfl, hgood, hwords⟩
          · rintro ⟨_, rfl, -, hwords⟩
            exact hwords

/-! ## Packing into a sink -/

theorem step_encode_of_pack {σ : Type} [WordSink σ] {Open : σ → Prop}
    {after : σ → UInt32 → σ} (htakes : WordSink.TakesAll Open after) {sink : σ}
    (hopen : Open sink) {ids : List UInt32} {segments : ℕ}
    {words : Array UInt32} (hpack : pack ids segments = .ok words) :
    (encode ids segments).step sink =
      (.ok (4 * words.size), words.toList.foldl after sink) := by
  have hput := htakes.step_putWords words.toList hopen
  rw [encode, hpack, Action.check_ok_bind, Action.step_bind_of_ok hput]
  rfl

/-- A bit of a list of words, counted from the lowest bit of the first word.
Past the last word no bit is set. -/
def bitOf (words : List UInt32) (bit : ℕ) : Bool :=
  (words.getD (bit / 32) 0).toNat.testBit (bit % 32)

/-- The words in which ids lie side by side in fields of one width: as many as
the bits of the fields need, with the same number as the fields, every field
in its own bits and zeros behind the last field. -/
structure Layout (width : ℕ) (ids words : List UInt32) : Prop where
  length_eq : words.length = wordCount ids.length width
  length_eq_ceilDiv : words.length = ids.length * width ⌈/⌉ 32
  sum_eq :
    ∑ k : Fin words.length, words[k].toNat * 2 ^ (k.val * 32) =
      ∑ i : Fin ids.length, ids[i].toNat * 2 ^ (i.val * width)
  field_bit : ∀ (i : Fin ids.length) (offset : ℕ), offset < width →
    bitOf words (i * width + offset) = ids[i].toNat.testBit offset
  padding_bit : ∀ bit, ids.length * width ≤ bit → bitOf words bit = false

theorem bitOf_eq_testBit (words : List UInt32) (bit : ℕ) :
    bitOf words bit = (fieldNumber 32 words).testBit bit :=
  (testBit_fieldNumber (by decide) (word_lt_two_pow words) bit).symm

/-- Words are told by their number and their bits. -/
theorem eq_of_bitOf_eq {left right : List UInt32}
    (hlength : left.length = right.length)
    (hbits : ∀ bit, bitOf left bit = bitOf right bit) : left = right := by
  apply eq_of_fieldNumber_words_eq hlength
  apply Nat.eq_of_testBit_eq
  intro bit
  rw [← bitOf_eq_testBit, ← bitOf_eq_testBit, hbits]

theorem bitOf_wordsOf (hpos : 0 < width) (hwidth : width ≤ 32)
    {ids : List UInt32} (hids : ∀ id ∈ ids, id.toNat < 2 ^ width) (bit : ℕ) :
    bitOf (wordsOf width ids).toList bit =
      (ids.getD (bit / width) 0).toNat.testBit (bit % width) := by
  rw [bitOf_eq_testBit, fieldNumber_wordsOf hwidth hids,
    testBit_fieldNumber hpos hids]

theorem layout_wordsOf (hpos : 0 < width) (hwidth : width ≤ 32)
    {ids : List UInt32} (hids : ∀ id ∈ ids, id.toNat < 2 ^ width) :
    Layout width ids (wordsOf width ids).toList where
  length_eq := by
    rw [Array.length_toList, size_wordsOf hwidth hids]
  length_eq_ceilDiv := by
    rw [Array.length_toList, size_wordsOf hwidth hids, wordCount_eq_ceilDiv]
  sum_eq := by
    rw [← fieldNumber_eq_sum, ← fieldNumber_eq_sum,
      fieldNumber_wordsOf hwidth hids]
  field_bit i offset hoffset := by
    have hdiv : (i * width + offset) / width = i := by
      rw [Nat.mul_comm, Nat.mul_add_div hpos, Nat.div_eq_of_lt hoffset,
        Nat.add_zero]
    have hmod : (i * width + offset) % width = offset := by
      rw [Nat.mul_comm, Nat.mul_add_mod, Nat.mod_eq_of_lt hoffset]
    have hget : ids.getD i.val 0 = ids[i] := by simp
    rw [bitOf_wordsOf hpos hwidth hids, hdiv, hmod, hget]
  padding_bit bit hbit := by
    have hpast : ids.length ≤ bit / width :=
      (Nat.le_div_iff_mul_le hpos).mpr hbit
    have hget : ids.getD (bit / width) 0 = 0 := by simp [hpast]
    rw [bitOf_wordsOf hpos hwidth hids, hget]
    exact Nat.zero_testBit _

/-- Ids below a segment count that fits a word are packed into any sink that
takes every word: the sink gets exactly the words of their layout, and the
bytes of these words are reported. -/
theorem encode_layout {σ : Type} [WordSink σ] {Open : σ → Prop}
    {after : σ → UInt32 → σ} (htakes : WordSink.TakesAll Open after) {sink : σ}
    (hopen : Open sink) {ids : List UInt32} {segments : ℕ}
    (hpos : 0 < segments) (hfits : segments < 2 ^ 32)
    (hids : ∀ id ∈ ids, id.toNat < segments) :
    ∃ width words,
      fieldWidth segments = .ok width ∧ Layout width ids words ∧
        (encode ids segments).step sink =
          (.ok (4 * words.length), words.foldl after sink) := by
  obtain ⟨width, hwidth⟩ := exists_fieldWidth hpos hfits
  have hsmall : ∀ id ∈ ids, id.toNat < 2 ^ width := fun id hid =>
    (hids id hid).trans (lt_two_pow_fieldWidth hwidth)
  have hpack : pack ids segments = .ok (wordsOf width ids) :=
    pack_eq_ok_iff.mpr ⟨width, hwidth, hids, rfl⟩
  refine ⟨width, (wordsOf width ids).toList, hwidth, ?_, ?_⟩
  · exact layout_wordsOf (fieldWidth_pos hwidth) (fieldWidth_le hwidth) hsmall
  · exact step_encode_of_pack htakes hopen hpack

/-- Eleven fields of three bits, the last of which straddles two words, behind
a word that is there already. -/
theorem encode_layout_straddling :
    (∀ id ∈ [1, 2, 3, 4, 5, 6, 0, 1, 2, 3, 6], UInt32.toNat id < 7) ∧
      ∃ width words,
        fieldWidth 7 = .ok width ∧
          Layout width [1, 2, 3, 4, 5, 6, 0, 1, 2, 3, 6] words ∧
          (encode [1, 2, 3, 4, 5, 6, 0, 1, 2, 3, 6] 7).step #[9] =
            (.ok (4 * words.length), words.foldl Array.push #[9]) :=
  ⟨by simp,
    encode_layout WordSink.takesAll_array trivial (by decide) (by decide)
      (by simp)⟩

end PackedTopology.Segmentation
