import PackedTopology.Proofs.RecordGrammar
import PackedTopology.Script

/-!
# Readings that do not see how bytes are delivered

A reader of a source that gives its bytes in chunks, of whatever sizes, is
compared with a reader that has the same bytes at hand.  Every reading takes the same fields from
both.  If the source breaks, the reading that the end of the bytes would cut
meets the refusal of the device instead, and nothing else changes: neither
what was found before, nor what is counted, nor what is left.
-/

namespace PackedTopology

/-- The fault of a reading that a broken device cuts short. -/
def Fault.brokenBy (error : DeviceError) : Fault → Fault
  | .incomplete _ _ _ => .device error
  | fault => fault

/-- The same where it is open whether the device breaks at all. -/
def Fault.under : Option DeviceError → Fault → Fault
  | none => id
  | some error => brokenBy error

theorem Fault.brokenBy_ne_incomplete (error : DeviceError) (fault : Fault)
    (region : Region) (offset needed : ℕ) :
    fault.brokenBy error ≠ .incomplete region offset needed := by
  cases fault <;> simp [brokenBy]

namespace Reader

variable {α β : Type} {trouble : Option DeviceError} {reader : Reader}

/-- The reader with the unread bytes of this one at hand. -/
def atHand (reader : Reader) : Reader :=
  holding reader.unread reader.counted

/-- What stands behind the bytes of the reader: their end, or a device that
refuses and does not claim that the bytes end. -/
structure Delivers (trouble : Option DeviceError) (reader : Reader) :
    Prop where
  breaksInTime : reader.source.BreaksInTime
  trouble_eq : reader.source.breakage.map Prod.snd = trouble
  not_ended : ∀ error ∈ trouble, error.cause ≠ .endedEarly

theorem Delivers.advance (hdelivers : Delivers trouble reader)
    (calls count counted : ℕ) :
    Delivers trouble ⟨reader.source.advance calls count, counted⟩ where
  breaksInTime := hdelivers.breaksInTime.advance calls count
  trouble_eq := by
    rw [← hdelivers.trouble_eq]
    simp only [Source.advance, Option.map_map]
    rfl
  not_ended := hdelivers.not_ended

theorem atHand_advance (reader : Reader) (calls count counted : ℕ) :
    (Reader.mk (reader.source.advance calls count) counted).atHand =
      holding (reader.unread.drop count) counted := by
  simp [atHand, unread]

/-! ## Steps -/

/-- The action ends alike on the reader and on its bytes at hand, but for the
fault of a device. -/
structure StepsAlike (trouble : Option DeviceError) (action : Action Reader α)
    (reader : Reader) : Prop where
  result_eq : (action.step reader).1 =
    (action.step reader.atHand).1.mapError (Fault.under trouble)
  delivers : Delivers trouble (action.step reader).2
  atHand_eq : (action.step reader).2.atHand = (action.step reader.atHand).2

def SeesBytes (action : Action Reader α) : Prop :=
  ∀ trouble reader, Delivers trouble reader → StepsAlike trouble action reader

theorem seesBytes_check {result : Except Fault α}
    (hresult : ∀ region offset needed,
      result ≠ .error (.incomplete region offset needed)) :
    SeesBytes (Action.check result) := by
  intro trouble reader hdelivers
  refine ⟨?_, hdelivers, rfl⟩
  cases result with
  | ok value => rfl
  | error fault =>
      cases trouble with
      | none => rfl
      | some error =>
          cases fault with
          | incomplete region offset needed => exact absurd rfl (hresult _ _ _)
          | _ => rfl

theorem seesBytes_pure (value : α) : SeesBytes (pure value) :=
  @seesBytes_check α (.ok value) (by simp)

theorem step_takeBytes_of_le (hdelivers : Delivers trouble reader)
    (region : Region) {size : ℕ} (hsize : size ≤ reader.unread.length) :
    ∃ calls, (takeBytes region size).step reader =
      (.ok (reader.unread.take size),
        ⟨reader.source.advance calls size, reader.counted + size⟩) := by
  obtain ⟨calls, hfill⟩ :=
    Source.exists_fill_eq_advance hdelivers.breaksInTime size
  have hcomplete : reader.source.fill size =
      (.complete (reader.unread.take size), reader.source.advance calls size) :=
    hfill.trans (if_pos hsize)
  exact ⟨calls, by simp only [takeBytes, Action.step_of, hcomplete]⟩

theorem step_takeBytes_of_lt (hdelivers : Delivers trouble reader)
    (region : Region) {size : ℕ} (hsize : reader.unread.length < size) :
    ∃ calls, (takeBytes region size).step reader =
      (.error (Fault.under trouble (.incomplete region reader.counted size)),
        ⟨reader.source.advance calls reader.unread.length, reader.counted⟩) := by
  obtain ⟨calls, hfill⟩ :=
    Source.exists_fill_eq_advance hdelivers.breaksInTime size
  have hending : reader.source.fill size =
      (reader.source.ending, reader.source.advance calls reader.unread.length) :=
    hfill.trans (if_neg (Nat.not_le_of_lt hsize))
  refine ⟨calls, ?_⟩
  obtain ⟨-, htrouble, hnot⟩ := hdelivers
  subst trouble
  simp only [takeBytes, Action.step_of, hending, Source.ending]
  cases hbreakage : reader.source.breakage with
  | none => rfl
  | some breakage =>
      simp [hnot breakage.2 (by simp [hbreakage]), Fault.under, Fault.brokenBy]

theorem seesBytes_takeBytes (region : Region) (size : ℕ) :
    SeesBytes (takeBytes region size) := by
  intro trouble reader hdelivers
  have hplain := @step_takeBytes_holding region reader.unread reader.counted size
  by_cases hsize : size ≤ reader.unread.length
  · obtain ⟨calls, hstep⟩ := step_takeBytes_of_le hdelivers region hsize
    rw [if_pos hsize] at hplain
    constructor
    · rw [hstep, atHand, hplain]
      rfl
    · rw [hstep]
      exact hdelivers.advance _ _ _
    · rw [hstep, atHand_advance, atHand, hplain]
  · obtain ⟨calls, hstep⟩ :=
      step_takeBytes_of_lt hdelivers region (Nat.lt_of_not_le hsize)
    rw [if_neg hsize] at hplain
    constructor
    · rw [hstep, atHand, hplain]
      rfl
    · rw [hstep]
      exact hdelivers.advance _ _ _
    · rw [hstep, atHand_advance, atHand, hplain, List.drop_length]

namespace SeesBytes

theorem bind {first : Action Reader α} {next : α → Action Reader β}
    (hfirst : SeesBytes first) (hnext : ∀ value, SeesBytes (next value)) :
    SeesBytes (first >>= next) := by
  intro trouble reader hdelivers
  obtain ⟨hresult, hafter, hhand⟩ := hfirst trouble reader hdelivers
  rcases hstep : first.step reader with ⟨outcome, after⟩
  rcases hplain : first.step reader.atHand with ⟨result, plain⟩
  rw [hstep] at hresult hafter hhand
  rw [hplain] at hresult hhand
  simp only at hresult hafter hhand
  subst outcome plain
  cases result with
  | error fault =>
      have hfault : (first >>= next).step reader = (.error _, after) :=
        Action.step_bind_of_error hstep
      have hcut : (first >>= next).step reader.atHand = (.error fault, _) :=
        Action.step_bind_of_error hplain
      constructor
      · rw [hfault, hcut]
        rfl
      · rw [hfault]
        exact hafter
      · rw [hfault, hcut]
  | ok value =>
      have hboth := hnext value trouble after hafter
      have hgoes : (first >>= next).step reader = (next value).step after :=
        Action.step_bind_of_ok hstep
      have hslice : (first >>= next).step reader.atHand =
          (next value).step after.atHand :=
        Action.step_bind_of_ok hplain
      constructor
      · rw [hgoes, hslice]
        exact hboth.result_eq
      · rw [hgoes]
        exact hboth.delivers
      · rw [hgoes, hslice]
        exact hboth.atHand_eq

theorem map {action : Action Reader α} (haction : SeesBytes action)
    (change : α → β) : SeesBytes (change <$> action) := by
  rw [map_eq_pure_bind]
  exact haction.bind fun value => seesBytes_pure (change value)

/-- The counts of both readers are equal, so what is measured is too. -/
theorem measured {action : Action Reader α} (haction : SeesBytes action) :
    SeesBytes (measured action) := by
  intro trouble reader hdelivers
  have hgrowth : ∀ start : Reader, start.counted = reader.counted →
      (Reader.measured action).step start =
        (action >>= fun value => do
          let after ← get
          return (value, after.counted - reader.counted)).step start := by
    intro start hstart
    rw [← hstart]
    rfl
  have hcount : SeesBytes (do
      let after ← (get : Action Reader Reader)
      return after.counted - reader.counted) :=
    fun _ _ hother => ⟨rfl, hother, rfl⟩
  have hboth := haction.bind fun value => hcount.map (Prod.mk value)
  have hsame : StepsAlike trouble (action >>= fun value => do
      let after ← get
      return (value, after.counted - reader.counted)) reader :=
    hboth trouble reader hdelivers
  constructor
  · rw [hgrowth reader rfl, hgrowth reader.atHand rfl]
    exact hsame.result_eq
  · rw [hgrowth reader rfl]
    exact hsame.delivers
  · rw [hgrowth reader rfl, hgrowth reader.atHand rfl]
    exact hsame.atHand_eq

theorem times {action : Action Reader α} (haction : SeesBytes action)
    (count : ℕ) : SeesBytes (action.times count) := by
  induction count with
  | zero => exact seesBytes_pure []
  | succ count ih =>
      rw [Action.times_succ]
      exact haction.bind fun value => ih.bind fun values =>
        seesBytes_pure (value :: values)

end SeesBytes

theorem seesBytes_take (α : Type) [Field α] (region : Region) :
    SeesBytes (take α region) :=
  (seesBytes_takeBytes region (Field.size α)).bind fun stored =>
    seesBytes_pure (Field.ofBytes stored)

end Reader

/-! ## Readings -/

open Reader

namespace Segmentation

theorem seesBytes_decode (vertices segments : ℕ) :
    SeesBytes (decode vertices segments) := by
  rw [decode_eq]
  apply (seesBytes_check (fieldWidth_ne_incomplete segments)).bind
  intro width
  apply SeesBytes.bind
  · exact (seesBytes_take UInt32 .segmentationWords).times _
  · exact fun words => seesBytes_pure _

theorem seesBytes_header : SeesBytes Header.read :=
  (seesBytes_take UInt32 .segmentationHeader).bind fun _ =>
    (seesBytes_take UInt32 .segmentationHeader).bind fun _ => seesBytes_pure _

theorem seesBytes_read (limit : Option ℕ) : SeesBytes (read limit) := by
  rw [read_eq]
  apply seesBytes_header.bind
  intro header
  apply (seesBytes_check (withinLimit_ne_incomplete _ _)).bind
  intro _
  exact (seesBytes_decode _ _).bind fun found => seesBytes_pure _

end Segmentation

namespace PersistenceIndex

theorem seesBytes_read : SeesBytes read := by
  have hentry : SeesBytes takeEntry :=
    (seesBytes_take Int32 .mappingEntries).bind fun vertex =>
      (seesBytes_take Scalar .mappingEntries).bind fun value =>
        seesBytes_pure _
  have hconstraint : SeesBytes takeConstraint :=
    (seesBytes_take Int32 .constraintEntries).bind fun vertex =>
      (seesBytes_take Scalar .constraintEntries).bind fun value =>
        (seesBytes_take Int32 .constraintEntries).bind fun kind =>
          seesBytes_pure _
  have hlists : SeesBytes takeLists :=
    (seesBytes_take UInt32 .mappingCount).bind fun mappingCount =>
      (hentry.times _).bind fun mapping =>
        (seesBytes_take UInt32 .constraintCount).bind fun constraintCount =>
          (hconstraint.times _).bind fun constraints =>
            seesBytes_pure _
  exact hlists.measured.bind fun found => seesBytes_pure _

end PersistenceIndex

theorem ReadStep.seesBytes (step : ReadStep) : SeesBytes step.perform := by
  cases step with
  | word region => exact (seesBytes_take UInt32 region).map _
  | integer region => exact (seesBytes_take Int32 region).map _
  | scalar region => exact (seesBytes_take Scalar region).map _
  | header => exact Segmentation.seesBytes_header.map _
  | segmentation limit => exact (Segmentation.seesBytes_read limit).map _
  | packed vertices segments =>
      exact (Segmentation.seesBytes_decode vertices segments).bind fun found =>
        seesBytes_pure _
  | index => exact PersistenceIndex.seesBytes_read.map _

/-! ## Runs -/

/-- What can be seen after a reading: its result, the count of the bytes read
and the bytes that are left. -/
def Reader.seen (outcome : Except Fault Reading × Reader) :
    Except Fault Reading × ℕ × List UInt8 :=
  (outcome.1, outcome.2.counted, outcome.2.unread)

/-- The same with another name for a cut. -/
def Reader.seenAs (rename : Fault → Fault)
    (outcome : Except Fault Reading × Reader) :
    Except Fault Reading × ℕ × List UInt8 :=
  (outcome.1.mapError rename, outcome.2.counted, outcome.2.unread)

theorem Reader.seenAs_id : seenAs id = seen := by
  funext outcome
  rcases outcome with ⟨_ | _, reader⟩ <;> rfl

/-- The run lemma: the reader keeps beside the one with its bytes at hand. -/
theorem Reader.Delivers.map_seen_runAll {trouble : Option DeviceError}
    {reader : Reader} (hdelivers : Delivers trouble reader)
    (steps : List ReadStep) :
    (Action.runAll (steps.map ReadStep.perform) reader).map seen =
      (Action.runAll (steps.map ReadStep.perform) reader.atHand).map
        (seenAs (Fault.under trouble)) := by
  induction steps generalizing reader with
  | nil => rfl
  | cons step steps ih =>
      obtain ⟨hresult, hafter, hhand⟩ := step.seesBytes trouble reader hdelivers
      simp only [List.map_cons, Action.runAll]
      congr 1
      · rw [seen, seenAs, ← hresult, ← hhand]
        rfl
      · rw [← hhand]
        exact ih hafter

/-- A sequence of readings, whatever they are, does not see in which chunks
its bytes come, be they of one size or of another one at every call.  If the
device breaks before their end, every reading ends as it would on the bytes
that came, except that the device is blamed for what would be a cut. -/
theorem delivery_independent (bytes : List UInt8) (pace : Pace)
    (steps : List ReadStep) :
    (Action.runAll (steps.map ReadStep.perform)
        (.ofSource ⟨bytes, pace, none⟩)).map seen =
      (Action.runAll (steps.map ReadStep.perform) (.ofList bytes)).map seen ∧
    ∀ (given : ℕ) (error : DeviceError), given ≤ bytes.length →
      error.cause ≠ .endedEarly →
      let broken := Action.runAll (steps.map ReadStep.perform)
        (.ofSource ⟨bytes, pace, some (given, error)⟩)
      broken.map seen =
          (Action.runAll (steps.map ReadStep.perform)
            (.ofList (bytes.take given))).map (seenAs (Fault.brokenBy error)) ∧
        ∀ outcome ∈ broken, ∀ region offset needed,
          outcome.1 ≠ .error (.incomplete region offset needed) := by
  constructor
  · have hdelivers : Delivers none (.ofSource ⟨bytes, pace, none⟩) :=
      ⟨Source.breaksInTime_of_none rfl, rfl, by simp⟩
    have hrun := hdelivers.map_seen_runAll steps
    rwa [show Fault.under none = id from rfl, seenAs_id] at hrun
  · intro given error hgiven herror broken
    have hdelivers :
        Delivers (some error) (.ofSource ⟨bytes, pace, some (given, error)⟩) := by
      refine ⟨?_, rfl, ?_⟩
      · rintro _ _ ⟨⟩
        exact hgiven
      · rintro _ ⟨⟩
        exact herror
    have hrun := hdelivers.map_seen_runAll steps
    refine ⟨hrun, ?_⟩
    intro outcome houtcome region offset needed hresult
    have hseen := List.mem_map_of_mem (f := seen) houtcome
    rw [hrun] at hseen
    obtain ⟨plain, -, hplain⟩ := List.mem_map.mp hseen
    have hfault : plain.1.mapError (Fault.brokenBy error) =
        .error (.incomplete region offset needed) :=
      (congrArg Prod.fst hplain).trans hresult
    rcases plain with ⟨fault | value, after⟩
    · exact Fault.brokenBy_ne_incomplete error fault region offset needed
        (Except.error.inj hfault)
    · cases hfault

/-- A device that gives one byte at first, three at the next call and then two a
call breaks within the second field. -/
theorem delivery_independent_broken_field :
    let error : DeviceError := ⟨.other, "device failed"⟩
    6 ≤ [7, 0, 0, 0, 1, 2, 3].length ∧ error.cause ≠ .endedEarly ∧
      (Action.runAll ([.word .mappingCount, .scalar .mappingEntries,
          .packed 0 3, .word .mappingCount].map ReadStep.perform)
        (.ofSource ⟨[7, 0, 0, 0, 1, 2, 3], ⟨[1, 3], some 2⟩,
          some (6, error)⟩)).map seen =
          [(.ok (.word 7), 4, [1, 2]), (.error (.device error), 4, []),
            (.ok (.packed [] 0), 4, []), (.error (.device error), 4, [])] := by
  intro error
  have hgiven : 6 ≤ [7, 0, 0, 0, 1, 2, 3].length := by decide
  have herror : error.cause ≠ .endedEarly := by decide
  have hrun := (delivery_independent [7, 0, 0, 0, 1, 2, 3] ⟨[1, 3], some 2⟩
    [.word .mappingCount, .scalar .mappingEntries, .packed 0 3,
      .word .mappingCount]).2 6 error hgiven herror
  refine ⟨hgiven, herror, hrun.1.trans ?_⟩
  with_unfolding_all rfl

end PackedTopology
