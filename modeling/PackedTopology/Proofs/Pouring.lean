import PackedTopology.Proofs.IndexRoundTrip

/-!
# Writing onto a target of any room

What an action has for a target does not depend on the target.  If all of it
fits, the action ends as it would without bounds.  If not, the target takes the
part that fits, and the action ends there with the refusal of the medium: it
never goes on behind a write that failed.  Fields are written like this, and
whatever is put together from fields and checks is too.
-/

namespace PackedTopology

namespace Writer

/-! ## Room -/

/-- The part of some bytes that the target takes. -/
def accepted (writer : Writer) (bytes : List UInt8) : List UInt8 :=
  writer.medium.fitting writer.taken.size bytes

def Fits (writer : Writer) (bytes : List UInt8) : Prop :=
  (writer.accepted bytes).length = bytes.length

variable {writer : Writer} {left right bytes : List UInt8}

theorem size_taken_after (writer : Writer) (bytes : List UInt8) :
    (writer.after bytes).taken.size = writer.taken.size + bytes.length := by
  have hcontent := congrArg List.length (content_after writer bytes)
  simpa [content] using hcontent

theorem accepted_of_none (hroom : writer.medium.room = none)
    (bytes : List UInt8) : writer.accepted bytes = bytes := by
  simp [accepted, Medium.fitting, hroom]

theorem accepted_of_some {room : ℕ} (hroom : writer.medium.room = some room)
    (bytes : List UInt8) :
    writer.accepted bytes = bytes.take (room - writer.taken.size) := by
  simp [accepted, Medium.fitting, hroom]

theorem exists_accepted_eq_take (writer : Writer) (bytes : List UInt8) :
    ∃ count, writer.accepted bytes = bytes.take count := by
  cases hroom : writer.medium.room with
  | none => exact ⟨bytes.length, by simp [accepted_of_none hroom]⟩
  | some room => exact ⟨_, accepted_of_some hroom bytes⟩

theorem length_accepted_le (writer : Writer) (bytes : List UInt8) :
    (writer.accepted bytes).length ≤ bytes.length := by
  obtain ⟨count, haccepted⟩ := writer.exists_accepted_eq_take bytes
  simp [haccepted]

theorem accepted_of_fits (hfits : writer.Fits bytes) :
    writer.accepted bytes = bytes := by
  obtain ⟨count, haccepted⟩ := writer.exists_accepted_eq_take bytes
  rw [Fits, haccepted, List.length_take] at hfits
  rw [haccepted]
  apply List.take_of_length_le
  omega

theorem fits_nil (writer : Writer) : writer.Fits [] := by
  have hle := writer.length_accepted_le []
  simp_all [Fits]

theorem accepted_append_of_fits (hleft : writer.Fits left)
    (right : List UInt8) :
    writer.accepted (left ++ right) =
      left ++ (writer.after left).accepted right := by
  cases hroom : writer.medium.room with
  | none =>
      have hafter : (writer.after left).medium.room = none := hroom
      rw [accepted_of_none hroom, accepted_of_none hafter]
  | some room =>
      have hafter : (writer.after left).medium.room = some room := hroom
      rw [Fits, accepted_of_some hroom, List.length_take] at hleft
      rw [accepted_of_some hroom, accepted_of_some hafter, size_taken_after,
        List.take_append, List.take_of_length_le (by omega), Nat.sub_sub]

theorem accepted_append_of_not_fits (hleft : ¬writer.Fits left)
    (right : List UInt8) :
    writer.accepted (left ++ right) = writer.accepted left := by
  cases hroom : writer.medium.room with
  | none => simp [Fits, accepted_of_none hroom] at hleft
  | some room =>
      rw [Fits, accepted_of_some hroom, List.length_take] at hleft
      have hnone : room - writer.taken.size - left.length = 0 := by omega
      rw [accepted_of_some hroom, accepted_of_some hroom, List.take_append, hnone,
        List.take_zero, List.append_nil]

theorem fits_append_iff :
    writer.Fits (left ++ right) ↔
      writer.Fits left ∧ (writer.after left).Fits right := by
  by_cases hleft : writer.Fits left
  · rw [and_iff_right hleft, Fits, accepted_append_of_fits hleft,
      List.length_append, List.length_append, Nat.add_left_cancel_iff, Fits]
  · have hle := writer.length_accepted_le left
    have hlt : (writer.accepted left).length ≠ left.length := hleft
    simp only [hleft, false_and, iff_false]
    rw [Fits, accepted_append_of_not_fits hleft, List.length_append]
    omega

/-! ## Actions that pour -/

/-- A writer whose target took some bytes, only a part of which may count. -/
def stopped (writer : Writer) (bytes : List UInt8) (counted : ℕ) : Writer :=
  { writer.take bytes with counted }

@[simp] theorem counted_stopped (writer : Writer) (bytes : List UInt8)
    (counted : ℕ) : (writer.stopped bytes counted).counted = counted :=
  rfl

@[simp] theorem content_stopped (writer : Writer) (bytes : List UInt8)
    (counted : ℕ) :
    (writer.stopped bytes counted).content = writer.content ++ bytes :=
  content_take writer bytes

theorem stopped_after (writer : Writer) (left right : List UInt8)
    (counted : ℕ) :
    (writer.after left).stopped right counted =
      writer.stopped (left ++ right) counted := by
  have htaken : writer.taken ++ left ++ right =
      writer.taken ++ (left ++ right) := by
    apply Array.toList_inj.mp
    simp
  simp [after, stopped, take, htaken]

/-- The action has these bytes for whatever target it runs on: it ends with its
own result if they fit, and with the refusal of the medium where they stop to
fit. -/
structure Pours {α : Type} (action : Action Writer α) (bytes : List UInt8)
    (result : Except Fault α) : Prop where
  step_of_fits : ∀ writer : Writer, writer.Fits bytes →
    action.step writer = (result, writer.after bytes)
  step_of_not_fits : ∀ writer : Writer, ¬writer.Fits bytes →
    ∃ counted, writer.counted ≤ counted ∧
      counted ≤ writer.counted + (writer.accepted bytes).length ∧
      action.step writer =
        (.error (.device writer.medium.refusal),
          writer.stopped (writer.accepted bytes) counted)

variable {α β : Type}

theorem pours_check (result : Except Fault α) :
    Pours (Action.check result) [] result where
  step_of_fits writer _ := by rw [Action.step_check, after_nil]
  step_of_not_fits writer hfits := absurd writer.fits_nil hfits

theorem pours_putBytes (bytes : List UInt8) :
    Pours (putBytes bytes) bytes (.ok ()) where
  step_of_fits writer hfits := by
    have haccepted := accepted_of_fits hfits
    unfold accepted at haccepted
    simp [putBytes, haccepted, after]
  step_of_not_fits writer hfits := by
    refine ⟨writer.counted, le_refl _, Nat.le_add_right _ _, ?_⟩
    simp only [putBytes, Action.step_of]
    exact if_neg hfits

namespace Pours

theorem bind {first : Action Writer α} {next : α → Action Writer β} {value : α}
    {result : Except Fault β} (hfirst : Pours first left (.ok value))
    (hnext : Pours (next value) right result) :
    Pours (first >>= next) (left ++ right) result where
  step_of_fits writer hfits := by
    obtain ⟨hleft, hright⟩ := fits_append_iff.mp hfits
    rw [Action.step_bind_of_ok (hfirst.step_of_fits writer hleft),
      hnext.step_of_fits _ hright, after_after]
  step_of_not_fits writer hfits := by
    by_cases hleft : writer.Fits left
    · have hright : ¬(writer.after left).Fits right := fun hright =>
        hfits (fits_append_iff.mpr ⟨hleft, hright⟩)
      obtain ⟨counted, hge, hle, hstep⟩ := hnext.step_of_not_fits _ hright
      rw [counted_after] at hge hle
      rw [accepted_append_of_fits hleft, List.length_append]
      refine ⟨counted, by omega, by omega, ?_⟩
      rw [Action.step_bind_of_ok (hfirst.step_of_fits writer hleft), hstep,
        stopped_after, medium_after]
    · obtain ⟨counted, hge, hle, hstep⟩ := hfirst.step_of_not_fits writer hleft
      rw [accepted_append_of_not_fits hleft]
      exact ⟨counted, hge, hle, Action.step_bind_of_error hstep⟩

theorem bind_of_error {first : Action Writer α} {fault : Fault}
    (hfirst : Pours first bytes (.error fault)) (next : α → Action Writer β) :
    Pours (first >>= next) bytes (.error fault) where
  step_of_fits writer hfits :=
    Action.step_bind_of_error (hfirst.step_of_fits writer hfits)
  step_of_not_fits writer hfits := by
    obtain ⟨counted, hge, hle, hstep⟩ := hfirst.step_of_not_fits writer hfits
    exact ⟨counted, hge, hle, Action.step_bind_of_error hstep⟩

theorem measured {action : Action Writer Unit} {result : Except Fault Unit}
    (haction : Pours action bytes result) :
    Pours (measured action) bytes (result.map fun _ => bytes.length) where
  step_of_fits writer hfits := by
    have hbefore : (get : Action Writer Writer).step writer =
        (.ok writer, writer) := rfl
    have hstep := haction.step_of_fits writer hfits
    rw [Writer.measured, Action.step_bind_of_ok hbefore]
    cases result with
    | error fault => rw [Action.step_bind_of_error hstep]; rfl
    | ok value =>
        have hafter : (get : Action Writer Writer).step (writer.after bytes) =
            (.ok (writer.after bytes), writer.after bytes) := rfl
        rw [Action.step_bind_of_ok hstep, Action.step_bind_of_ok hafter,
          Action.step_pure, counted_after, Nat.add_sub_cancel_left]
        rfl
  step_of_not_fits writer hfits := by
    have hbefore : (get : Action Writer Writer).step writer =
        (.ok writer, writer) := rfl
    obtain ⟨counted, hge, hle, hstep⟩ := haction.step_of_not_fits writer hfits
    refine ⟨counted, hge, hle, ?_⟩
    rw [Writer.measured, Action.step_bind_of_ok hbefore,
      Action.step_bind_of_error hstep]

end Pours

/-- The action pours some bytes and ends with some result of its own. -/
def Streams (action : Action Writer α) : Prop :=
  ∃ bytes result, Pours action bytes result

theorem streams_check (result : Except Fault α) :
    Streams (Action.check result) :=
  ⟨[], result, pours_check result⟩

theorem streams_pure (value : α) : Streams (pure value) :=
  streams_check (.ok value)

theorem streams_putBytes (bytes : List UInt8) : Streams (putBytes bytes) :=
  ⟨bytes, .ok (), pours_putBytes bytes⟩

theorem streams_put [Field α] (value : α) : Streams (put value) :=
  streams_putBytes (Field.bytes value)

namespace Streams

theorem bind {first : Action Writer α} {next : α → Action Writer β}
    (hfirst : Streams first) (hnext : ∀ value, Streams (next value)) :
    Streams (first >>= next) := by
  obtain ⟨left, result, hleft⟩ := hfirst
  cases result with
  | error fault => exact ⟨left, .error fault, hleft.bind_of_error next⟩
  | ok value =>
      obtain ⟨right, last, hright⟩ := hnext value
      exact ⟨left ++ right, last, hleft.bind hright⟩

theorem map {action : Action Writer α} (haction : Streams action)
    (change : α → β) : Streams (change <$> action) := by
  rw [map_eq_pure_bind]
  exact haction.bind fun value => streams_pure (change value)

theorem measured {action : Action Writer Unit} (haction : Streams action) :
    Streams (measured action) := by
  obtain ⟨bytes, result, hpours⟩ := haction
  exact ⟨bytes, _, hpours.measured⟩

end Streams

theorem streams_forM {put : α → Action Writer Unit}
    (hput : ∀ value, Streams (put value)) (values : List α) :
    Streams (values.forM put) := by
  induction values with
  | nil => exact streams_pure ()
  | cons value values ih => exact (hput value).bind fun _ => ih

theorem streams_putWords (words : List UInt32) :
    Streams (WordSink.putWords words : Action Writer Unit) := by
  induction words with
  | nil => exact streams_pure ()
  | cons word words ih => exact (streams_put word).bind fun _ => ih

/-! ## Pouring on a target without bounds -/

theorem fits_of_unbounded (hmedium : writer.medium = .unbounded)
    (bytes : List UInt8) : writer.Fits bytes := by
  have hroom : writer.medium.room = none := by simp [hmedium, Medium.room]
  rw [Fits, accepted_of_none hroom]

theorem Pours.emits {action : Action Writer α} {value : α}
    (hpours : Pours action bytes (.ok value)) : Emits action bytes value := by
  intro writer hmedium
  exact hpours.step_of_fits writer (fits_of_unbounded hmedium bytes)

/-- Without bounds there is nothing else to see of an action than what it pours
and how it ends. -/
theorem Pours.eq_of_emits {action : Action Writer α} {value : α}
    {result : Except Fault α} (hpours : Pours action left result)
    (hemits : Emits action right value) : left = right ∧ result = .ok value := by
  have hfits := @fits_of_unbounded (.empty .unbounded) rfl left
  have hstep := hpours.step_of_fits _ hfits
  rw [hemits (.empty .unbounded) rfl] at hstep
  obtain ⟨hresult, hafter⟩ := Prod.mk.inj hstep
  have hcontent := congrArg content hafter
  simp only [content_after, content_empty, List.nil_append] at hcontent
  exact ⟨hcontent.symm, hresult.symm⟩

theorem Streams.pours_of_emits {action : Action Writer α} {value : α}
    (hstreams : Streams action) (hemits : Emits action bytes value) :
    Pours action bytes (.ok value) := by
  obtain ⟨poured, result, hpours⟩ := hstreams
  obtain ⟨rfl, rfl⟩ := hpours.eq_of_emits hemits
  exact hpours

end Writer

/-! ## Records -/

namespace Segmentation

open Writer

theorem streams_header (header : Header) : Streams header.write :=
  (streams_put header.vertices).bind fun _ =>
    (streams_put header.segments).bind fun _ => streams_pure Header.size

theorem streams_encode (ids : List UInt32) (segments : ℕ) :
    Streams (encode ids segments : Action Writer ℕ) :=
  (streams_check (pack ids segments)).bind fun words =>
    (streams_putWords words.toList).bind fun _ => streams_pure (4 * words.size)

theorem streams_write (ids : List UInt32) (segments : ℕ) :
    Streams (write ids segments) :=
  (streams_check _).bind fun vertices =>
    (streams_check (fieldWidth segments)).bind fun _ =>
      (streams_header ⟨vertices, UInt32.ofNat segments⟩).bind fun header =>
        (streams_encode ids segments).bind fun packed =>
          streams_pure (header + packed)

section

variable {ids : List UInt32} {segments width : ℕ} {vertices : UInt32}
  {fault : Fault}

theorem pours_write_of_count
    (hcount : countField .segmentationHeader ids.length = .error fault) :
    Pours (write ids segments) [] (.error fault) := by
  rw [write, hcount]
  exact (pours_check (.error fault)).bind_of_error _

theorem pours_write_of_width
    (hcount : countField .segmentationHeader ids.length = .ok vertices)
    (hwidth : fieldWidth segments = .error fault) :
    Pours (write ids segments) [] (.error fault) := by
  rw [write, hcount, Action.check_ok_bind, hwidth]
  exact (pours_check (.error fault)).bind_of_error _

theorem pours_write_of_ids
    (hcount : countField .segmentationHeader ids.length = .ok vertices)
    (hwidth : fieldWidth segments = .ok width)
    (hpack : pack ids segments = .error fault) :
    Pours (write ids segments)
      (storedHeader ⟨vertices, UInt32.ofNat segments⟩) (.error fault) := by
  have hheader := (streams_header ⟨vertices, UInt32.ofNat segments⟩).pours_of_emits
    (emits_header _)
  have hencode : Pours (encode ids segments : Action Writer ℕ) []
      (.error fault) := by
    rw [encode, hpack]
    exact (pours_check (.error fault)).bind_of_error _
  rw [write, hcount, Action.check_ok_bind, hwidth, Action.check_ok_bind,
    ← List.append_nil (storedHeader _)]
  exact hheader.bind (hencode.bind_of_error _)

theorem pours_write {words : Array UInt32}
    (hcount : countField .segmentationHeader ids.length = .ok vertices)
    (hwidth : fieldWidth segments = .ok width)
    (hpack : pack ids segments = .ok words) :
    Pours (write ids segments)
      (storedHeader ⟨vertices, UInt32.ofNat segments⟩ ++
        storedWords words.toList)
      (.ok (Header.size + 4 * words.size)) :=
  (streams_write ids segments).pours_of_emits (emits_write hcount hwidth hpack)

end

end Segmentation

namespace PersistenceIndex

open Writer

theorem streams_entry (entry : MappingEntry) : Streams (putEntry entry) :=
  (streams_put entry.vertex).bind fun _ => streams_put entry.value

theorem streams_constraint (constraint : Constraint) :
    Streams (putConstraint constraint) :=
  (streams_put constraint.vertex).bind fun _ =>
    (streams_put constraint.value).bind fun _ => streams_put constraint.kind

theorem streams_write (index : PersistenceIndex) : Streams index.write := by
  apply (streams_check _).bind
  intro counts
  apply (streams_check _).bind
  intro _
  apply Streams.measured
  exact (streams_put counts.1).bind fun _ =>
    (streams_forM streams_entry index.mapping).bind fun _ =>
      (streams_put counts.2).bind fun _ =>
        streams_forM streams_constraint index.constraints

section

variable {index : PersistenceIndex} {mappingCount constraintCount : UInt32}
  {fault : Fault}

theorem pours_write_of_counts
    (hcounts : countFields index.mapping.length index.constraints.length =
      .error fault) :
    Pours index.write [] (.error fault) := by
  rw [write, hcounts]
  exact (pours_check (.error fault)).bind_of_error _

theorem pours_write_of_vertices
    (hcounts : countFields index.mapping.length index.constraints.length =
      .ok (mappingCount, constraintCount))
    (hvertices : checkVertices index.mapping = .error fault) :
    Pours index.write [] (.error fault) := by
  rw [write, hcounts, Action.check_ok_bind, hvertices]
  exact (pours_check (.error fault)).bind_of_error _

theorem pours_write
    (hcounts : countFields index.mapping.length index.constraints.length =
      .ok (mappingCount, constraintCount))
    (hvertices : checkVertices index.mapping = .ok ()) :
    Pours index.write (storedIndex mappingCount constraintCount index)
      (.ok (storedIndex mappingCount constraintCount index).length) :=
  index.streams_write.pours_of_emits
    (emits_write hcounts (checkVertices_eq_ok_iff.mp hvertices))

end

end PersistenceIndex

end PackedTopology
