import PackedTopology.Proofs.SegmentationRoundTrip

/-!
# Words and their bytes

Packed ids go into a list of words or, as the bytes of these words, onto a
target; they come from a cursor over words or from a reader of their bytes.  A
cursor and a reader that stand at the same word stay together: they give the
same words, and where the words end, a few stray bytes make no word, so both
miss it at the same offset.
-/

namespace PackedTopology.Segmentation

/-! ## Packing -/

section

variable {ids : List UInt32} {segments : ℕ}

theorem step_encode_of_error {σ : Type} [WordSink σ] {fault : Fault}
    (hpack : pack ids segments = .error fault) (sink : σ) :
    (encode ids segments).step sink = (.error fault, sink) := by
  rw [encode, hpack]
  rfl

/-- A sink of words and a writer get the same words, each in its own form. -/
theorem exists_added_of_encode (ids : List UInt32) (segments : ℕ)
    (words : Array UInt32) {writer : Writer}
    (hmedium : writer.medium = .unbounded) :
    ∃ result added,
      (encode ids segments).step words =
          (result, added.foldl Array.push words) ∧
        (encode ids segments).step writer =
          (result, writer.after (storedWords added)) := by
  cases hpack : pack ids segments with
  | error fault =>
      refine ⟨.error fault, [], step_encode_of_error hpack words, ?_⟩
      rw [step_encode_of_error hpack, storedWords, List.flatMap_nil,
        Writer.after_nil]
  | ok packed =>
      exact ⟨.ok (4 * packed.size), packed.toList,
        step_encode_of_pack WordSink.takesAll_array trivial hpack,
        emits_encode hpack writer hmedium⟩

end

/-! ## Unpacking -/

/-- The reader has the bytes of the words at the cursor in front of it, and a
tail behind them that is no word. -/
structure Beside (tail : List UInt8) (cursor : WordCursor) (reader : Reader) :
    Prop where
  position_le : cursor.position ≤ cursor.words.size
  length_tail : tail.length < 4
  reader_eq : reader = .holding
    (storedWords (cursor.words.toList.drop cursor.position) ++ tail)
    (4 * cursor.position)

variable {tail : List UInt8} {cursor : WordCursor} {reader : Reader}

theorem storedWords_drop {words : Array UInt32} {position : ℕ}
    (hposition : position < words.size) :
    storedWords (words.toList.drop position) =
      Field.bytes words[position] ++
        storedWords (words.toList.drop (position + 1)) := by
  rw [List.drop_eq_getElem_cons (by simpa using hposition)]
  simp [storedWords]

theorem Beside.nextWord_of_lt (hbeside : Beside tail cursor reader)
    (hposition : cursor.position < cursor.words.size) :
    ∃ after,
      (WordSource.nextWord .segmentationWords).step reader =
          (.ok cursor.words[cursor.position], after) ∧
        Beside tail { cursor with position := cursor.position + 1 } after := by
  obtain ⟨-, htail, rfl⟩ := hbeside
  have hword := Reader.consumes_take .segmentationWords
    cursor.words[cursor.position]
    (storedWords (cursor.words.toList.drop (cursor.position + 1)) ++ tail)
    (4 * cursor.position)
  rw [← List.append_assoc, ← storedWords_drop hposition] at hword
  refine ⟨_, hword, hposition, htail, ?_⟩
  rw [Field.length_bytes]
  rfl

theorem Beside.nextWord_of_end (hbeside : Beside tail cursor reader)
    (hposition : cursor.position = cursor.words.size) :
    (WordSource.nextWord .segmentationWords : Action Reader UInt32).step
        reader =
      (.error (.incomplete .segmentationWords (4 * cursor.words.size) 4),
        .holding [] (4 * cursor.words.size)) := by
  obtain ⟨-, htail, rfl⟩ := hbeside
  have hnone : cursor.words.toList.drop cursor.position = [] := by
    simp [hposition]
  rw [hnone, hposition]
  exact Reader.step_takeWord_of_lt .segmentationWords _ htail

/-- The run lemma: words are taken, or missed, at the same place. -/
theorem Beside.takeWords (count : ℕ) (hbeside : Beside tail cursor reader) :
    ((takeWords Reader count).step reader).1 =
        ((takeWords WordCursor count).step cursor).1 ∧
      4 * ((takeWords WordCursor count).step cursor).2.position =
        ((takeWords Reader count).step reader).2.counted := by
  induction count generalizing cursor reader with
  | zero =>
      obtain ⟨-, -, rfl⟩ := hbeside
      exact ⟨rfl, rfl⟩
  | succ count ih =>
      rw [takeWords_succ, takeWords_succ]
      by_cases hend : cursor.position = cursor.words.size
      · have hcursor := step_nextWord_cursor_of_end hend
        have hreader := hbeside.nextWord_of_end hend
        rw [Action.step_bind_of_error hcursor,
          Action.step_bind_of_error hreader, hend]
        exact ⟨rfl, rfl⟩
      · have hlt := Nat.lt_of_le_of_ne hbeside.position_le hend
        have hcursor := step_nextWord_cursor_of_lt hlt
        obtain ⟨after, hreader, hafter⟩ := hbeside.nextWord_of_lt hlt
        obtain ⟨hresult, hplace⟩ := ih hafter
        rw [Action.step_bind_of_ok hcursor, Action.step_bind_of_ok hreader,
          ← map_eq_pure_bind, ← map_eq_pure_bind, Action.step_map,
          Action.step_map]
        exact ⟨congrArg (Except.map _) hresult, hplace⟩

theorem Beside.decode (vertices segments : ℕ)
    (hbeside : Beside tail cursor reader) :
    ((decode vertices segments).step reader).1 =
        ((decode vertices segments).step cursor).1 ∧
      4 * ((decode vertices segments).step cursor).2.position =
        ((decode vertices segments).step reader).2.counted := by
  cases hwidth : fieldWidth segments with
  | error fault =>
      rw [step_decode_of_error hwidth, step_decode_of_error hwidth]
      exact ⟨rfl, by rw [hbeside.reader_eq]; rfl⟩
  | ok width =>
      obtain ⟨hresult, hplace⟩ := hbeside.takeWords (wordCount vertices width)
      simp only [decode_eq, hwidth, Action.check_ok_bind, ← map_eq_pure_bind,
        Action.step_map]
      exact ⟨congrArg (Except.map _) hresult, hplace⟩

/-- Words and bytes are two forms of the same packed ids.  Packing appends to a
target without bounds the bytes of the words that it appends to a list of
words, and answers alike.  Unpacking from a word of a list and from the bytes
of this word on, even with up to three stray bytes at the end, answers alike
too, faults included, and ends at the same place. -/
theorem word_paths_agree :
    (∀ (ids : List UInt32) (segments : ℕ) (words : Array UInt32)
        (writer : Writer), writer.medium = .unbounded →
      ∃ added : List UInt32,
        ((encode ids segments).step words).2.toList = words.toList ++ added ∧
          ((encode ids segments).step writer).2.content =
            writer.content ++ added.flatMap Field.bytes ∧
          ((encode ids segments).step writer).1 =
            ((encode ids segments).step words).1) ∧
    ∀ (words : List UInt32) (position : ℕ) (tail : List UInt8)
        (vertices segments : ℕ), position ≤ words.length → tail.length ≤ 3 →
      let bytes := words.flatMap Field.bytes ++ tail
      let onWords := (decode vertices segments).step
        (WordCursor.mk words.toArray position)
      let onBytes := (decode vertices segments).step
        (Reader.mk (.ofList (bytes.drop (4 * position))) (4 * position))
      onBytes.1 = onWords.1 ∧ 4 * onWords.2.position = onBytes.2.counted := by
  constructor
  · intro ids segments words writer hmedium
    obtain ⟨result, added, hwords, hwriter⟩ :=
      exists_added_of_encode ids segments words hmedium
    rw [hwords, hwriter]
    exact ⟨added, by simp, Writer.content_after _ _, rfl⟩
  · intro words position tail vertices segments hposition htail bytes
    have hlength : (storedWords (words.take position)).length =
        4 * position := by
      rw [length_storedWords, List.length_take_of_le hposition]
    have hbytes : bytes.drop (4 * position) =
        storedWords (words.drop position) ++ tail := by
      have hsplit : bytes = storedWords (words.take position) ++
          (storedWords (words.drop position) ++ tail) := by
        rw [← List.append_assoc, storedWords, storedWords, ← List.flatMap_append,
          List.take_append_drop]
      rw [hsplit, List.drop_left' hlength]
    rw [hbytes]
    exact Beside.decode vertices segments
      ⟨by simpa using hposition, Nat.lt_succ_of_le htail, rfl⟩

/-- Two fields behind a word, and forty fields that take four words where only
two are left: both paths give these up behind the third word. -/
theorem word_paths_agree_short :
    ((encode [1, 5] 7).step (#[9] : Array UInt32)).2 = #[9, 41] ∧
      ((encode [1, 5] 7).step (Writer.empty .unbounded)).2.content =
        [41, 0, 0, 0] ∧
      (decode 40 7).step (WordCursor.mk #[9, 2147483648, 4294967295] 1) =
        (.error (.incomplete .segmentationWords 12 4),
          ⟨#[9, 2147483648, 4294967295], 3⟩) ∧
      ((decode 40 7).step (Reader.mk (.ofList
          [0, 0, 0, 128, 255, 255, 255, 255, 5, 6]) 4)).1 =
        .error (.incomplete .segmentationWords 12 4) ∧
      ((decode 40 7).step (Reader.mk (.ofList
          [0, 0, 0, 128, 255, 255, 255, 255, 5, 6]) 4)).2.counted = 12 := by
  have hwords : ((encode [1, 5] 7).step (#[9] : Array UInt32)).2 = #[9, 41] := by
    decide
  have hcursor :
      (decode 40 7).step (WordCursor.mk #[9, 2147483648, 4294967295] 1) =
        (.error (.incomplete .segmentationWords 12 4),
          ⟨#[9, 2147483648, 4294967295], 3⟩) := by decide
  obtain ⟨added, hadded, hcontent, -⟩ :=
    word_paths_agree.1 [1, 5] 7 #[9] (.empty .unbounded) rfl
  rw [hwords] at hadded
  obtain rfl : added = [41] := by simpa using hadded.symm
  obtain ⟨hresult, hplace⟩ :=
    word_paths_agree.2 [9, 2147483648, 4294967295] 1 [5, 6] 40 7 (by decide)
      (by decide)
  refine ⟨hwords, hcontent, hcursor, ?_, ?_⟩
  · exact hresult.trans (congrArg Prod.fst hcursor)
  · exact hplace.symm.trans
      (congrArg (fun outcome => 4 * outcome.2.position) hcursor)

end PackedTopology.Segmentation
