import PackedTopology.Proofs.Pouring

/-!
# Headers without a record

A record with too many ids or with a segment count that has no width is refused
before anything goes out.  The ids are looked at later: if one of them is out of
range, the header has gone out already and stays.  A reader cannot tell it from
the header of a record, so it takes what is written next for the words of the
refused one.
-/

namespace PackedTopology.Segmentation

open Writer

variable {ids : List UInt32} {segments : ℕ} {writer : Writer} {fault : Fault}

/-- The header that goes out before the ids are looked at. -/
def headerOf (ids : List UInt32) (segments : ℕ) : Header :=
  ⟨.ofNat ids.length, .ofNat segments⟩

theorem step_write_of_count
    (hcount : countField .segmentationHeader ids.length = .error fault)
    (writer : Writer) :
    (write ids segments).step writer = (.error fault, writer) := by
  have hpours := @pours_write_of_count ids segments _ hcount
  rw [hpours.step_of_fits writer writer.fits_nil, after_nil]

theorem step_write_of_width (hlength : ids.length < 2 ^ 32)
    (hwidth : fieldWidth segments = .error fault) (writer : Writer) :
    (write ids segments).step writer = (.error fault, writer) := by
  have hcount := countField_of_lt hlength .segmentationHeader
  have hpours := pours_write_of_width hcount hwidth
  rw [hpours.step_of_fits writer writer.fits_nil, after_nil]

/-- The first id that is out of range is named, and what it leaves behind does
not depend on the target. -/
theorem exists_pours_write_of_large (hlength : ids.length < 2 ^ 32)
    (hpos : 0 < segments) (hfits : segments < 2 ^ 32)
    (hlarge : ∃ id ∈ ids, segments ≤ id.toNat) :
    ∃ (index : ℕ) (hindex : index < ids.length),
      segments ≤ ids[index].toNat ∧
        (∀ (earlier : ℕ) (hearlier : earlier < index),
          ids[earlier].toNat < segments) ∧
        Pours (write ids segments) (storedHeader (headerOf ids segments))
          (.error (.idOutOfRange index ids[index] segments)) := by
  obtain ⟨width, hwidth⟩ := exists_fieldWidth hpos hfits
  obtain ⟨id, hid, hrange⟩ := hlarge
  obtain ⟨index, hindex, hsegments, hearlier, hpack⟩ :=
    exists_pack_error hwidth fun hids => Nat.not_lt_of_le hrange (hids id hid)
  have hcount := countField_of_lt hlength .segmentationHeader
  exact ⟨index, hindex, hsegments, hearlier,
    pours_write_of_ids hcount hwidth hpack⟩

/-- Whatever follows a header, a record that is found there has this header. -/
theorem header_eq_of_step_read {header : Header} {more : List UInt8}
    {limit : Option ℕ} {counted : ℕ} {record : Record} {after : Reader}
    (hread : (read limit).step (.holding (storedHeader header ++ more) counted) =
      (.ok record, after)) :
    record.header = header := by
  rw [read_eq, Action.step_bind_of_ok (consumes_header header more counted)]
    at hread
  obtain ⟨_, _, -, hbody⟩ :=
    Action.exists_of_step_bind_eq_ok (congrArg Prod.fst hread)
  rw [readBody] at hbody
  obtain ⟨⟨found, packed⟩, _, -, hrecord⟩ :=
    Action.exists_of_step_bind_eq_ok hbody
  rw [Action.step_pure] at hrecord
  exact congrArg Record.header (Except.ok.inj hrecord).symm

/-- A record that is refused for its counts leaves the writer as it was.  One
that is refused for an id leaves its header behind, which counts as written, and
every record that is read from there on has that header. -/
theorem refused_id_leaves_header (ids : List UInt32) (segments : ℕ)
    (writer : Writer) :
    (2 ^ 32 ≤ ids.length →
      (write ids segments).step writer =
        (.error (.countOverflow .segmentationHeader ids.length), writer)) ∧
    (ids.length < 2 ^ 32 → ∀ fault, fieldWidth segments = .error fault →
      (write ids segments).step writer = (.error fault, writer)) ∧
    (ids.length < 2 ^ 32 → 0 < segments → segments < 2 ^ 32 →
      (∃ id ∈ ids, segments ≤ id.toNat) →
      let stored := storedHeader (headerOf ids segments)
      (writer.Fits stored →
        ∃ (index : ℕ) (hindex : index < ids.length),
          segments ≤ ids[index].toNat ∧
          (∀ (earlier : ℕ) (hearlier : earlier < ids.length), earlier < index →
            ids[earlier].toNat < segments) ∧
          ∃ after,
            (write ids segments).step writer =
                (.error (.idOutOfRange index ids[index] segments), after) ∧
              after.content = writer.content ++ stored ∧
              after.counted = writer.counted + 8) ∧
      (¬writer.Fits stored →
        ((write ids segments).step writer).1 =
          .error (.device writer.medium.refusal)) ∧
      ∀ (limit : Option ℕ) (more : List UInt8) (counted : ℕ) (record : Record)
        (rest : Reader),
        (read limit).step (.holding (stored ++ more) counted) =
            (.ok record, rest) →
          record.header = headerOf ids segments) := by
  refine ⟨?_, ?_, ?_⟩
  · intro hlength
    exact step_write_of_count (if_neg (Nat.not_lt_of_le hlength)) writer
  · intro hlength fault hwidth
    exact step_write_of_width hlength hwidth writer
  · intro hlength hpos hfits hlarge stored
    obtain ⟨index, hindex, hsegments, hearlier, hpours⟩ :=
      exists_pours_write_of_large hlength hpos hfits hlarge
    refine ⟨?_, ?_, ?_⟩
    · intro hroom
      refine ⟨index, hindex, hsegments, fun earlier _ => hearlier earlier, _,
        hpours.step_of_fits writer hroom, content_after writer stored, ?_⟩
      rw [counted_after, length_storedHeader]
      rfl
    · intro hroom
      obtain ⟨_, -, -, hstep⟩ := hpours.step_of_not_fits writer hroom
      exact congrArg Prod.fst hstep
    · intro limit more counted record rest hread
      exact header_eq_of_step_read hread

/-- The second of two ids is out of range, behind a byte that was written
before. -/
theorem refused_id_leaves_header_second :
    ∃ after,
      (write [1, 7] 4).step ⟨.unbounded, #[9], 1⟩ =
          (.error (.idOutOfRange 1 7 4), after) ∧
        after.content = [9, 2, 0, 0, 0, 4, 0, 0, 0] ∧ after.counted = 9 := by
  obtain ⟨-, -, hids⟩ := refused_id_leaves_header [1, 7] 4 ⟨.unbounded, #[9], 1⟩
  obtain ⟨hfits, -⟩ := hids (by decide) (by decide) (by decide)
    ⟨7, by decide, by decide⟩
  obtain ⟨index, hindex, hsegments, -, after, hstep, hcontent, hcounted⟩ :=
    hfits (fits_of_unbounded rfl _)
  rcases index with _ | _ | index
  · simp at hsegments
  · exact ⟨after, hstep, hcontent, hcounted⟩
  · exact absurd hindex (by simp)

/-- A record behind a refused one is accepted, but two ids are read that nobody
wrote. -/
theorem refused_id_misleads_reader :
    let refused := (write [1, 7] 4).step (.empty .unbounded)
    let written := (write [0, 1, 1] 2).step refused.2
    refused.1 = .error (.idOutOfRange 1 7 4) ∧
      refused.2.content = [2, 0, 0, 0, 4, 0, 0, 0] ∧
      refused.2.counted = 8 ∧
      written.1 = .ok 12 ∧
      ((read none).step (.ofList written.2.content)).1 =
        .ok ⟨⟨2, 4⟩, [3, 0], 12⟩ := by
  decide +kernel

end PackedTopology.Segmentation
