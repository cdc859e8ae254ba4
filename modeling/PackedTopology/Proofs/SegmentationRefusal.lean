import PackedTopology.Proofs.OrphanHeader
import PackedTopology.Proofs.WordBytes

/-!
# Which ids are refused

Ids are refused for their segment count, if it is zero or more than a word can
hold, and otherwise for the first of them that is not below it; there is no
other reason.  The checks come before the first word, so a sink is left as it was
by a refusal, whatever good ids stand in front of the bad one.  Where nothing is
refused, a sink that takes every word lets packing succeed.  The record form
looks at the number of ids first and then refuses for the same reasons.
-/

namespace PackedTopology

namespace WordSink

variable {σ : Type} [WordSink σ]

/-- A sink that refuses a word for nothing but its device. -/
def FailsAsDevice (σ : Type) [WordSink σ] : Prop :=
  ∀ (word : UInt32) (sink after : σ) (fault : Fault),
    (putWord word).step sink = (.error fault, after) →
      ∃ error, fault = .device error

theorem failsAsDevice_array : FailsAsDevice (Array UInt32) := by
  intro word sink after fault hput
  cases congrArg Prod.fst hput

theorem failsAsDevice_writer : FailsAsDevice Writer := by
  intro word writer after fault hput
  have hstep : (Writer.put word).step writer = (.error fault, after) := hput
  have hpours : Writer.Pours (Writer.put word) (Field.bytes word) (.ok ()) :=
    Writer.pours_putBytes (Field.bytes word)
  by_cases hfits : writer.Fits (Field.bytes word)
  · rw [hpours.step_of_fits writer hfits] at hstep
    cases congrArg Prod.fst hstep
  · obtain ⟨counted, -, -, hrefused⟩ := hpours.step_of_not_fits writer hfits
    rw [hrefused] at hstep
    exact ⟨_, (Except.error.inj (congrArg Prod.fst hstep)).symm⟩

theorem FailsAsDevice.putWords (hdevice : FailsAsDevice σ) (words : List UInt32)
    {sink : σ} {fault : Fault}
    (hfails : ((putWords words).step sink).1 = .error fault) :
    ∃ error, fault = .device error := by
  induction words generalizing sink with
  | nil => cases hfails
  | cons word words ih =>
      rw [WordSink.putWords, Action.step_bind] at hfails
      rcases hword : (putWord word).step sink with ⟨_ | _, after⟩
      · rw [hword] at hfails
        obtain rfl := Except.error.inj hfails
        exact hdevice word sink after _ hword
      · rw [hword] at hfails
        exact ih hfails

end WordSink

namespace Segmentation

variable {ids : List UInt32} {segments : ℕ} {fault : Fault}

/-- The faults for which ids are refused under a segment count. -/
inductive Refused (ids : List UInt32) (segments : ℕ) : Fault → Prop
  | noSegments (hnone : segments = 0) :
      Refused ids segments (.undefinedWidth segments)
  | tooManySegments (width : ℕ) (hmany : 2 ^ 32 ≤ segments)
      (hlow : 2 ^ (width - 1) ≤ segments) (hhigh : segments < 2 ^ width) :
      Refused ids segments (.unsupportedWidth width segments)
  | idOutOfRange (index : ℕ) (hindex : index < ids.length)
      (hpos : 0 < segments) (hfits : segments < 2 ^ 32)
      (hrange : segments ≤ ids[index].toNat)
      (hearlier : ∀ (earlier : ℕ) (_ : earlier < ids.length),
        earlier < index → ids[earlier].toNat < segments) :
      Refused ids segments (.idOutOfRange index ids[index] segments)

theorem pack_of_fieldWidth_error (hwidth : fieldWidth segments = .error fault)
    (ids : List UInt32) : pack ids segments = .error fault := by
  rw [pack, hwidth]
  rfl

theorem refused_of_pack_error (hpack : pack ids segments = .error fault) :
    Refused ids segments fault := by
  cases hwidth : fieldWidth segments with
  | error reason =>
      rw [pack_of_fieldWidth_error hwidth] at hpack
      obtain rfl := Except.error.inj hpack
      rcases fieldWidth_eq_error_iff.mp hwidth with
        ⟨hnone, rfl⟩ | ⟨hmany, width, hlow, hhigh, rfl⟩
      · exact .noSegments hnone
      · exact .tooManySegments width hmany hlow hhigh
  | ok width =>
      obtain ⟨hpos, hfits, -⟩ := fieldWidth_eq_ok_iff.mp hwidth
      have hbad : ¬∀ id ∈ ids, id.toNat < segments := by
        intro hids
        rw [pack_eq_ok_iff.mpr ⟨width, hwidth, hids, rfl⟩] at hpack
        cases hpack
      obtain ⟨index, hindex, hrange, hearlier, hrefused⟩ :=
        exists_pack_error hwidth hbad
      rw [hrefused] at hpack
      obtain rfl := Except.error.inj hpack
      exact .idOutOfRange index hindex hpos hfits hrange
        fun earlier _ hlt => hearlier earlier hlt

theorem pack_error_of_refused (hrefused : Refused ids segments fault) :
    pack ids segments = .error fault := by
  cases hrefused with
  | noSegments hnone =>
      exact pack_of_fieldWidth_error
        (fieldWidth_eq_error_iff.mpr (.inl ⟨hnone, rfl⟩)) ids
  | tooManySegments width hmany hlow hhigh =>
      exact pack_of_fieldWidth_error
        (fieldWidth_eq_error_iff.mpr
          (.inr ⟨hmany, width, hlow, hhigh, rfl⟩)) ids
  | idOutOfRange index hindex hpos hfits hrange hearlier =>
      obtain ⟨width, hwidth⟩ := exists_fieldWidth hpos hfits
      have hbad : ¬∀ id ∈ ids, id.toNat < segments := fun hids =>
        Nat.not_lt_of_le hrange (hids _ (List.getElem_mem hindex))
      obtain ⟨found, hfound, hfoundRange, hfoundEarlier, hpack⟩ :=
        exists_pack_error hwidth hbad
      -- Both indices are the first one out of range.
      obtain rfl : found = index := by
        apply Nat.le_antisymm
        · exact Nat.le_of_not_lt fun hlt =>
            Nat.not_lt_of_le hrange (hfoundEarlier index hlt)
        · exact Nat.le_of_not_lt fun hlt =>
            Nat.not_lt_of_le hfoundRange (hearlier found hfound hlt)
      exact hpack

theorem pack_eq_error_iff :
    pack ids segments = .error fault ↔ Refused ids segments fault :=
  ⟨refused_of_pack_error, pack_error_of_refused⟩

theorem exists_pack_of_not_refused
    (haccepted : ∀ fault, ¬Refused ids segments fault) :
    ∃ words, pack ids segments = .ok words := by
  cases hpack : pack ids segments with
  | error fault => exact absurd (refused_of_pack_error hpack) (haccepted fault)
  | ok words => exact ⟨words, rfl⟩

/-- What a sink does not refuse for its device, it refuses for the arguments. -/
theorem refused_of_step_encode {σ : Type} [WordSink σ]
    (hdevice : WordSink.FailsAsDevice σ) {sink : σ}
    (hfails : ((encode ids segments).step sink).1 = .error fault) :
    Refused ids segments fault ∨ ∃ error, fault = .device error := by
  cases hpack : pack ids segments with
  | error reason =>
      rw [step_encode_of_error hpack] at hfails
      obtain rfl := Except.error.inj hfails
      exact .inl (refused_of_pack_error hpack)
  | ok words =>
      rw [encode, hpack, Action.check_ok_bind, Action.step_bind] at hfails
      rcases hput : (WordSink.putWords words.toList).step sink with
        ⟨reason | _, after⟩
      · rw [hput] at hfails
        obtain rfl := Except.error.inj hfails
        exact .inr (hdevice.putWords words.toList (congrArg Prod.fst hput))
      · rw [hput] at hfails
        cases hfails

/-! ## Records -/

theorem step_write_eq_error_iff (hlength : ids.length < 2 ^ 32) {writer : Writer}
    (hmedium : writer.medium = .unbounded) :
    ((write ids segments).step writer).1 = .error fault ↔
      Refused ids segments fault := by
  have hcount := countField_of_lt hlength .segmentationHeader
  have hresult : ((write ids segments).step writer).1 =
      (pack ids segments).map fun words => Header.size + 4 * words.size := by
    cases hwidth : fieldWidth segments with
    | error reason =>
        rw [step_write_of_width hlength hwidth, pack_of_fieldWidth_error hwidth]
        rfl
    | ok width =>
        cases hpack : pack ids segments with
        | error reason =>
            rw [(pours_write_of_ids hcount hwidth hpack).step_of_fits writer
              (Writer.fits_of_unbounded hmedium _)]
            rfl
        | ok words =>
            rw [(pours_write hcount hwidth hpack).step_of_fits writer
              (Writer.fits_of_unbounded hmedium _)]
            rfl
  rw [hresult, ← pack_eq_error_iff]
  cases pack ids segments <;> simp [Except.map]

/-- Ids are refused exactly for a segment count that is zero or wider than a
word, and otherwise for the first of them that is not below it.  Packing into a
list answers so, and packing into a sink does in whatever state it is, and leaves
it as it was; any other fault is one of its device.  Where nothing is refused, a
sink that takes every word gets all of them.  A record with too many ids is
refused before all this, and otherwise for the same fault. -/
theorem encode_refuses_exactly (ids : List UInt32) (segments : ℕ) :
    (∀ fault, pack ids segments = .error fault ↔ Refused ids segments fault) ∧
    (∀ {σ : Type} [WordSink σ] (sink : σ),
      (∀ fault, Refused ids segments fault →
        (encode ids segments).step sink = (.error fault, sink)) ∧
      (WordSink.FailsAsDevice σ → ∀ fault, (∀ error, fault ≠ .device error) →
        (((encode ids segments).step sink).1 = .error fault ↔
          Refused ids segments fault)) ∧
      ((∀ fault, ¬Refused ids segments fault) →
        ∀ (Open : σ → Prop) (after : σ → UInt32 → σ),
          WordSink.TakesAll Open after → Open sink →
          ∃ words : List UInt32, (encode ids segments).step sink =
            (.ok (4 * words.length), words.foldl after sink))) ∧
    (2 ^ 32 ≤ ids.length → ∀ writer, (write ids segments).step writer =
      (.error (.countOverflow .segmentationHeader ids.length), writer)) ∧
    (ids.length < 2 ^ 32 → ∀ writer : Writer, writer.medium = .unbounded →
      ∀ fault, ((write ids segments).step writer).1 = .error fault ↔
        Refused ids segments fault) := by
  refine ⟨fun fault => pack_eq_error_iff, ?_, ?_, ?_⟩
  · intro σ _ sink
    have hunchanged : ∀ fault, Refused ids segments fault →
        (encode ids segments).step sink = (.error fault, sink) :=
      fun fault hrefused =>
        step_encode_of_error (pack_error_of_refused hrefused) sink
    refine ⟨hunchanged, ?_, ?_⟩
    · intro hdevice fault hother
      constructor
      · intro hfails
        rcases refused_of_step_encode hdevice hfails with hrefused | ⟨error, rfl⟩
        · exact hrefused
        · exact absurd rfl (hother error)
      · exact fun hrefused => congrArg Prod.fst (hunchanged fault hrefused)
    · intro haccepted Open after htakes hopen
      obtain ⟨words, hpack⟩ := exists_pack_of_not_refused haccepted
      exact ⟨words.toList, step_encode_of_pack htakes hopen hpack⟩
  · intro hlength writer
    exact step_write_of_count (countField_of_le hlength .segmentationHeader) writer
  · intro hlength writer hmedium fault
    exact step_write_eq_error_iff hlength hmedium

/-- The last of three ids is out of range, whatever the state of the sink; more
segments than a word can count and none at all; and three ids that are taken
behind a word that is there already. -/
theorem encode_refuses_exactly_samples :
    (∀ (sink after : Array UInt32) (fault : Fault),
      (∀ error, fault ≠ .device error) →
      (encode [0, 1, 5] 3).step sink = (.error fault, after) →
        fault = .idOutOfRange 2 5 3) ∧
    (∀ (writer after : Writer) (fault : Fault),
      (∀ error, fault ≠ .device error) →
      (encode [0, 1, 5] 3).step writer = (.error fault, after) →
        fault = .idOutOfRange 2 5 3) ∧
    (∀ writer : Writer, (encode [7] (2 ^ 32)).step writer =
      (.error (.unsupportedWidth 33 (2 ^ 32)), writer)) ∧
    (write [7] 0).step (.empty .unbounded) =
      (.error (.undefinedWidth 0), .empty .unbounded) ∧
    ∃ words : List UInt32, (encode [0, 1, 2] 3).step #[9] =
      (.ok (4 * words.length), words.foldl Array.push #[9]) := by
  have hpack : pack [0, 1, 5] 3 = .error (.idOutOfRange 2 5 3) := by decide
  obtain ⟨hpacks, hsinks, -, -⟩ := encode_refuses_exactly [0, 1, 5] 3
  have honly : ∀ fault, Refused [0, 1, 5] 3 fault →
      fault = .idOutOfRange 2 5 3 := by
    intro fault hrefused
    rw [← hpacks, hpack] at hrefused
    exact (Except.error.inj hrefused).symm
  refine ⟨?_, ?_, ?_, ?_, ?_⟩
  · intro sink after fault hother hstep
    obtain ⟨-, hexact, -⟩ := hsinks sink
    exact honly fault ((hexact WordSink.failsAsDevice_array fault hother).mp
      (congrArg Prod.fst hstep))
  · intro writer after fault hother hstep
    obtain ⟨-, hexact, -⟩ := hsinks writer
    exact honly fault ((hexact WordSink.failsAsDevice_writer fault hother).mp
      (congrArg Prod.fst hstep))
  · intro writer
    obtain ⟨-, hwide, -, -⟩ := encode_refuses_exactly [7] (2 ^ 32)
    exact (hwide writer).1 _
      (.tooManySegments 33 (Nat.le_refl _) (by decide) (by decide))
  · obtain ⟨-, -, -, hrecord⟩ := encode_refuses_exactly [7] 0
    have hresult := (hrecord (by decide) (.empty .unbounded) rfl _).mpr
      (.noSegments rfl)
    exact Prod.ext hresult (by decide)
  · obtain ⟨haccepts, htaken, -, -⟩ := encode_refuses_exactly [0, 1, 2] 3
    have hok : pack [0, 1, 2] 3 = .ok #[36] := by decide
    have hgood : ∀ fault, ¬Refused [0, 1, 2] 3 fault := by
      intro fault hrefused
      rw [← haccepts, hok] at hrefused
      cases hrefused
    exact (htaken #[9]).2.2 hgood _ _ WordSink.takesAll_array trivial

end Segmentation

end PackedTopology
