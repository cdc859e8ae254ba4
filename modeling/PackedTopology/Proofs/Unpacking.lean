import PackedTopology.Proofs.Action
import PackedTopology.Proofs.BitQueue
import PackedTopology.Proofs.FieldNumber
import PackedTopology.Proofs.Width

/-!
# Unpacking as cutting a block of words

Unpacking takes a word only when the bits at hand do not make up a field.
Still it is the same as taking all the words that the fields reach into at
once and cutting their number into fields: no word is taken early, none is
taken too much, and when a word cannot be had the fault and the state are
those of the missing word.
-/

namespace PackedTopology

variable {width : ℕ}

namespace BitQueue

/-- The number of the live bits when the bits of some words come next. -/
def ahead (queue : BitQueue) (words : List UInt32) : ℕ :=
  queue.bits.toNat + 2 ^ queue.held * Segmentation.fieldNumber 32 words

theorem ahead_append {queue : BitQueue} (hsettled : queue.Settled)
    (word : UInt32) (words : List UInt32) :
    (queue.append word wordBits).ahead words = queue.ahead (word :: words) := by
  have hbits : (queue.append word 32).bits.toNat =
      queue.bits.toNat + 2 ^ queue.held * word.toNat :=
    append_bits_toNat hsettled word.toNat_lt (le_refl 32)
  show (queue.append word 32).bits.toNat +
    2 ^ (queue.held + 32) * Segmentation.fieldNumber 32 words = _
  rw [hbits, ahead, Segmentation.fieldNumber_cons, pow_add]
  ring

/-- With a whole field at hand, the next field and what is ahead after it are
the remainder and the quotient of what is ahead. -/
theorem ahead_eq_extract (hwidth : width ≤ 32) {queue : BitQueue}
    (hheld : width ≤ queue.held) (words : List UInt32) :
    queue.ahead words =
      (queue.extract width).1.toNat +
        2 ^ width * (queue.extract width).2.ahead words := by
  have hpow : 2 ^ queue.held = 2 ^ width * 2 ^ (queue.held - width) := by
    rw [← pow_add, Nat.add_sub_cancel' hheld]
  have hsplit := Nat.mod_add_div queue.bits.toNat (2 ^ width)
  rw [extract_fst_toNat hwidth, ahead, ahead, extract_snd_bits_toNat hwidth,
    extract_snd_held, hpow, Nat.mul_add, ← Nat.add_assoc, hsplit,
    Nat.mul_assoc]

theorem extract_fst_lt (hwidth : width ≤ 32) {queue : BitQueue} :
    (queue.extract width).1.toNat < 2 ^ width := by
  rw [extract_fst_toNat hwidth]
  exact Nat.mod_lt _ (Nat.two_pow_pos width)

theorem extract_settled (hwidth : width ≤ 32) {queue : BitQueue}
    (hbits : queue.bits.toNat < 2 ^ queue.held) (hheld : width ≤ queue.held)
    (hfew : queue.held - width < wordBits) :
    (queue.extract width).2.Settled :=
  settled_of_bits_lt hfew (extract_bits_lt hwidth hheld hbits)

end BitQueue

namespace Segmentation

/-- The words that `count` more fields reach into when `held` bits are at
hand. -/
def missingWords (width count held : ℕ) : ℕ :=
  (count * width - held + 31) / 32

theorem missingWords_zero_held (count : ℕ) :
    missingWords width count 0 = wordCount count width :=
  rfl

theorem missingWords_refill {held : ℕ} (hwidth : width ≤ 32)
    (hheld : held < width) (count : ℕ) :
    missingWords width (count + 1) held =
      missingWords width count (held + 32 - width) + 1 := by
  have hbits : (count + 1) * width = count * width + width :=
    Nat.succ_mul count width
  unfold missingWords
  rw [hbits]
  omega

theorem missingWords_pull {held : ℕ} (hheld : width ≤ held) (count : ℕ) :
    missingWords width (count + 1) held =
      missingWords width count (held - width) := by
  have hbits : (count + 1) * width = count * width + width :=
    Nat.succ_mul count width
  unfold missingWords
  rw [hbits]
  omega

section Source

variable {σ : Type} [WordSource σ]

/-- The next `count` words of a source, on behalf of the packed ids. -/
def takeWords (σ : Type) [WordSource σ] (count : ℕ) : Action σ (List UInt32) :=
  (WordSource.nextWord .segmentationWords).times count

theorem takeWords_succ (count : ℕ) :
    takeWords σ (count + 1) = do
      let word ← WordSource.nextWord .segmentationWords
      let words ← takeWords σ count
      return word :: words :=
  Action.times_succ _ count

/-- The ids and the count of words of an unpacker. -/
def Unpacker.found (unpacker : Unpacker) : List UInt32 × ℕ :=
  (unpacker.ids.toList, unpacker.words)

/-- What an unpacker finds that takes `count` more fields from its own bits
and from `words`. -/
def Unpacker.finds (width count : ℕ) (unpacker : Unpacker)
    (words : List UInt32) : List UInt32 × ℕ :=
  (unpacker.ids.toList ++ fieldsOf width count (unpacker.queue.ahead words),
    unpacker.words + missingWords width count unpacker.queue.held)

/-- An unpacker that took one more word. -/
def Unpacker.refilled (unpacker : Unpacker) (word : UInt32) : Unpacker :=
  { unpacker with
    words := unpacker.words + 1
    queue := unpacker.queue.append word wordBits }

theorem Unpacker.finds_pull (hwidth : width ≤ 32) {unpacker : Unpacker}
    (hheld : width ≤ unpacker.queue.held) (count : ℕ) (words : List UInt32) :
    (unpacker.pull width).finds width count words =
      unpacker.finds width (count + 1) words := by
  have hahead := BitQueue.ahead_eq_extract hwidth hheld words
  have hfields := fieldsOf_succ_of_eq (BitQueue.extract_fst_lt hwidth) hahead count
  rw [Unpacker.finds, Unpacker.finds, hfields, missingWords_pull hheld]
  simp [Unpacker.pull]

theorem Unpacker.finds_refilled (hwidth : width ≤ 32) {unpacker : Unpacker}
    (hsettled : unpacker.queue.Settled) (hheld : unpacker.queue.held < width)
    (count : ℕ) (word : UInt32) (words : List UInt32) :
    (unpacker.refilled word).finds width (count + 1) words =
      unpacker.finds width (count + 1) (word :: words) := by
  have hwords : missingWords width (count + 1) unpacker.queue.held =
      missingWords width (count + 1) (unpacker.queue.held + 32) + 1 := by
    rw [missingWords_refill hwidth hheld, missingWords_pull (by omega)]
  have hahead := BitQueue.ahead_append hsettled word words
  rw [Unpacker.finds, Unpacker.finds, ← hahead, hwords, ← Nat.add_assoc,
    Nat.add_right_comm]
  rfl

/-- The run of an unpacker takes exactly the missing words and finds the
fields of their number. -/
theorem Unpacker.found_run (hwidth : width ≤ 32) (count : ℕ)
    (unpacker : Unpacker) (hsettled : unpacker.queue.Settled) :
    Unpacker.found <$> (run width count unpacker : Action σ Unpacker) =
      unpacker.finds width count <$>
        takeWords σ (missingWords width count unpacker.queue.held) := by
  induction count generalizing unpacker with
  | zero =>
      have hnone : missingWords width 0 unpacker.queue.held = 0 := by
        simp [missingWords]
      rw [hnone]
      simp [run, takeWords, Unpacker.found, Unpacker.finds, fieldsOf, hnone]
  | succ count ih =>
      have hless : unpacker.queue.held < 32 := hsettled.held_lt
      by_cases hheld : unpacker.queue.held < width
      · have hnext : ∀ word,
            ((unpacker.refilled word).pull width).queue.Settled := by
          intro word
          refine BitQueue.extract_settled hwidth
            (BitQueue.append_bits_lt hsettled word.toNat_lt (le_refl 32))
            (hwidth.trans (Nat.le_add_left 32 _)) ?_
          show unpacker.queue.held + 32 - width < 32
          omega
        have hfinds : ∀ word,
            ((unpacker.refilled word).pull width).finds width count =
              fun words => unpacker.finds width (count + 1) (word :: words) := by
          intro word
          funext words
          rw [finds_pull hwidth (hwidth.trans (Nat.le_add_left 32 _)),
            finds_refilled hwidth hsettled hheld]
        have hrun : ∀ word, Unpacker.found <$>
            (run width count ((unpacker.refilled word).pull width) :
              Action σ Unpacker) =
              (fun words => unpacker.finds width (count + 1) (word :: words)) <$>
                takeWords σ
                  (missingWords width count (unpacker.queue.held + 32 - width)) :=
          fun word => (ih _ (hnext word)).trans (by rw [hfinds word]; rfl)
        rw [missingWords_refill hwidth hheld, takeWords_succ]
        simp only [run, refill, if_pos hheld, bind_assoc, pure_bind, map_bind,
          map_pure]
        congr 1
        funext word
        exact (hrun word).trans (map_eq_pure_bind _ _)
      · have hready : width ≤ unpacker.queue.held := Nat.le_of_not_lt hheld
        have hnext : (unpacker.pull width).queue.Settled :=
          BitQueue.extract_settled hwidth hsettled.bits_lt hready
            (Nat.sub_lt_of_lt hless)
        have hfinds : (unpacker.pull width).finds width count =
            unpacker.finds width (count + 1) :=
          funext fun words => finds_pull hwidth hready count words
        rw [missingWords_pull hready, ← hfinds]
        simp only [run, refill, if_neg hheld, pure_bind]
        exact ih (unpacker.pull width) hnext

/-- Unpacking is to take the words of all fields and to cut their number into
fields. -/
theorem decode_eq (vertices segments : ℕ) :
    (decode vertices segments : Action σ (List UInt32 × ℕ)) = do
      let width ← Action.check (fieldWidth segments)
      let words ← takeWords σ (wordCount vertices width)
      return (fieldsOf width vertices (fieldNumber 32 words),
        4 * wordCount vertices width) := by
  unfold decode
  cases hwidth : fieldWidth segments with
  | error fault => rfl
  | ok width =>
      have hrun : Unpacker.found <$>
          (Unpacker.run width vertices .start : Action σ Unpacker) = _ :=
        Unpacker.found_run (fieldWidth_le hwidth) vertices .start
          BitQueue.empty_settled
      have hcut : ∀ words, Unpacker.start.finds width vertices words =
          (fieldsOf width vertices (fieldNumber 32 words),
            wordCount vertices width) := by
        intro words
        simp [Unpacker.finds, Unpacker.start, BitQueue.ahead, BitQueue.empty,
          missingWords_zero_held]
      rw [Action.check_ok_bind, Action.check_ok_bind]
      have hbytes := congrArg
        (fun found => (fun pair => (pair.1, 4 * pair.2)) <$> found) hrun
      simp only [Functor.map_map] at hbytes
      rw [map_eq_pure_bind, map_eq_pure_bind] at hbytes
      simp only [hcut] at hbytes
      exact hbytes

end Source

/-! ## Words from a cursor -/

theorem step_nextWord_cursor_of_lt {cursor : WordCursor}
    (hposition : cursor.position < cursor.words.size) :
    (WordSource.nextWord .segmentationWords).step cursor =
      (.ok cursor.words[cursor.position],
        { cursor with position := cursor.position + 1 }) := by
  show (WordCursor.next .segmentationWords).step cursor = _
  simp [WordCursor.next, hposition]

theorem step_nextWord_cursor_of_end {cursor : WordCursor}
    (hposition : cursor.position = cursor.words.size) :
    (WordSource.nextWord .segmentationWords : Action WordCursor UInt32).step
        cursor =
      (.error (.incomplete .segmentationWords (4 * cursor.words.size) 4),
        cursor) := by
  show (WordCursor.next .segmentationWords).step cursor = _
  simp [WordCursor.next, hposition]

theorem step_takeWords_cursor (count : ℕ) {cursor : WordCursor}
    (hposition : cursor.position ≤ cursor.words.size) :
    (takeWords WordCursor count).step cursor =
      if count ≤ cursor.words.size - cursor.position then
        (.ok ((cursor.words.toList.drop cursor.position).take count),
          { cursor with position := cursor.position + count })
      else
        (.error (.incomplete .segmentationWords (4 * cursor.words.size) 4),
          { cursor with position := cursor.words.size }) := by
  induction count generalizing cursor with
  | zero => simp [takeWords]
  | succ count ih =>
      rw [takeWords_succ]
      by_cases hend : cursor.position = cursor.words.size
      · have hshort : ¬ count + 1 ≤ cursor.words.size - cursor.position := by
          omega
        rw [Action.step_bind_of_error (step_nextWord_cursor_of_end hend),
          if_neg hshort, ← hend]
      · have hlt : cursor.position < cursor.words.size :=
          Nat.lt_of_le_of_ne hposition hend
        have hrest := @ih { cursor with position := cursor.position + 1 } hlt
        have hword : cursor.words.toList.drop cursor.position =
            cursor.words[cursor.position] ::
              cursor.words.toList.drop (cursor.position + 1) := by
          rw [List.drop_eq_getElem_cons (by simpa using hlt)]
          simp
        rw [Action.step_bind_of_ok (step_nextWord_cursor_of_lt hlt)]
        by_cases henough : count + 1 ≤ cursor.words.size - cursor.position
        · have hmore : count ≤ cursor.words.size - (cursor.position + 1) := by
            omega
          have hshift : cursor.position + 1 + count =
              cursor.position + (count + 1) := by omega
          rw [if_pos hmore, hshift] at hrest
          rw [if_pos henough, Action.step_bind_of_ok hrest, hword,
            List.take_succ_cons, Action.step_pure]
        · have hless : ¬ count ≤ cursor.words.size - (cursor.position + 1) := by
            omega
          rw [if_neg hless] at hrest
          rw [if_neg henough, Action.step_bind_of_error hrest]

/-- Unpacking from a cursor succeeds exactly if the words that the fields reach
into are there.  It then finds the fields of the number that the words at the
cursor stand for, whatever comes behind the last field, and moves past these
words only.  Otherwise it runs into the end of the words. -/
theorem decode_cursor_outcome {cursor : WordCursor}
    (hposition : cursor.position ≤ cursor.words.size) (vertices : ℕ)
    {segments : ℕ} (hpos : 0 < segments) (hfits : segments < 2 ^ 32) :
    ∃ width, fieldWidth segments = .ok width ∧
      (vertices * width ⌈/⌉ 32 ≤ cursor.words.size - cursor.position →
        ∃ ids,
          (decode vertices segments).step cursor =
              (.ok (ids, 4 * (vertices * width ⌈/⌉ 32)),
                { cursor with
                  position := cursor.position + vertices * width ⌈/⌉ 32 }) ∧
            ids.length = vertices ∧
            ∀ (i : ℕ) (hi : i < ids.length),
              ids[i].toNat =
                fieldNumber 32 (cursor.words.toList.drop cursor.position) /
                  2 ^ (i * width) % 2 ^ width) ∧
      (cursor.words.size - cursor.position < vertices * width ⌈/⌉ 32 →
        (decode vertices segments).step cursor =
          (.error (.incomplete .segmentationWords (4 * cursor.words.size) 4),
            { cursor with position := cursor.words.size })) := by
  obtain ⟨width, hwidth⟩ := exists_fieldWidth hpos hfits
  have hwords := step_takeWords_cursor (wordCount vertices width) hposition
  refine ⟨width, hwidth, ?_⟩
  rw [← wordCount_eq_ceilDiv]
  refine ⟨?_, ?_⟩
  · intro henough
    rw [if_pos henough] at hwords
    refine ⟨fieldsOf width vertices
      (fieldNumber 32 (cursor.words.toList.drop cursor.position)), ?_, ?_, ?_⟩
    · rw [decode_eq, hwidth, Action.check_ok_bind,
        Action.step_bind_of_ok hwords, Action.step_pure,
        fieldNumber_take_words,
        fieldsOf_mod _ _ (le_wordCount_mul vertices width)]
    · exact length_fieldsOf _ _
    · intro i hi
      exact toNat_getElem_fieldsOf (fieldWidth_le hwidth) _ _ i hi
  · intro hshort
    rw [if_neg (Nat.not_le_of_lt hshort)] at hwords
    rw [decode_eq, hwidth, Action.check_ok_bind,
      Action.step_bind_of_error hwords]

/-- Eleven fields of three bits from the second of four words: the last field
straddles two words, and the bits behind it are set. -/
theorem decode_cursor_outcome_straddling :
    ∃ ids,
      (decode 11 7).step (WordCursor.mk #[9, 2147483648, 4294967295, 7] 1) =
          (.ok (ids, 8), ⟨#[9, 2147483648, 4294967295, 7], 3⟩) ∧
        ids.length = 11 ∧
        ∀ hlast : 10 < ids.length, ids[10].toNat = 6 := by
  obtain ⟨width, hwidth, hsuccess, -⟩ :=
    @decode_cursor_outcome (.mk #[9, 2147483648, 4294967295, 7] 1) (by decide)
      11 7 (by decide) (by decide)
  have hthree : fieldWidth 7 = .ok 3 := by decide
  obtain rfl : width = 3 := Except.ok.inj (hwidth.symm.trans hthree)
  obtain ⟨ids, hstep, hlength, hids⟩ := hsuccess (by decide)
  refine ⟨ids, hstep, hlength, ?_⟩
  intro hlast
  rw [hids 10 hlast]
  decide

end Segmentation

end PackedTopology
