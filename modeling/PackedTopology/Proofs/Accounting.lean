import PackedTopology.Proofs.IndexGrammar
import PackedTopology.Script

/-!
# What a reader counts

A reading asks for fields one by one.  If all of them are there, exactly these
are counted, even if the reading then refuses what they say.  If not, it counts
the fields in front of the first one that is not there whole, loses the bytes
that are left, and names the place where this field starts.  From then on the
count stays at this place and every field is missed there.
-/

namespace PackedTopology

namespace Reader

variable {α β : Type} {action : Action Reader α} {rest : List UInt8}
  {counted : ℕ} {left right slots : List Slot}

/-! ## Taking all fields -/

/-- The action takes all of these fields, and its result does not blame a
cut. -/
structure TakesAll (slots : List Slot) (action : Action Reader α)
    (rest : List UInt8) (counted : ℕ) (result : Except Fault α) : Prop where
  fits : Slot.total slots ≤ rest.length
  step_eq : action.step (.holding rest counted) =
    (result, .holding (rest.drop (Slot.total slots))
      (counted + Slot.total slots))
  not_cut : ∀ region offset needed,
    result ≠ .error (.incomplete region offset needed)

theorem takesAll_check {result : Except Fault α}
    (hresult : ∀ region offset needed,
      result ≠ .error (.incomplete region offset needed)) :
    TakesAll [] (Action.check result) rest counted result :=
  ⟨Nat.zero_le _, by simp, hresult⟩

theorem TakesAll.of_consumes {stored : List UInt8} {value : α}
    (hconsumes : Consumes action stored value)
    (hlength : stored.length = Slot.total slots) :
    TakesAll slots action (stored ++ rest) counted (.ok value) where
  fits := by simp [← hlength]
  step_eq := by rw [hconsumes rest counted, ← hlength, List.drop_left]
  not_cut := by simp

theorem TakesAll.of_bind {first : Action Reader α} {next : α → Action Reader β}
    {stored : List UInt8} {value : α} {result : Except Fault β}
    (hfirst : Consumes first stored value)
    (hlength : stored.length = Slot.total left)
    (hnext : TakesAll right (next value) rest (counted + stored.length) result) :
    TakesAll (left ++ right) (first >>= next) (stored ++ rest) counted
      result where
  fits := by
    have hfits := hnext.fits
    simp only [Slot.total_append, List.length_append]
    omega
  step_eq := by
    rw [Action.step_bind_of_ok (hfirst rest counted), hnext.step_eq,
      Slot.total_append, ← hlength, ← List.drop_drop, List.drop_left,
      Nat.add_assoc]
  not_cut := hnext.not_cut

theorem TakesAll.map {result : Except Fault α}
    (htakes : TakesAll slots action rest counted result) (change : α → β) :
    TakesAll slots (change <$> action) rest counted (result.map change) where
  fits := htakes.fits
  step_eq := by rw [Action.step_map, htakes.step_eq]
  not_cut := by
    have hnot := htakes.not_cut
    cases result with
    | error fault => simpa [Except.map] using hnot
    | ok value => simp [Except.map]

/-! ## All fields or a stop -/

/-- The action takes all of the fields and ends in an admitted way, or it stops
in one of them. -/
def Covers (slots : List Slot) (action : Action Reader α) (rest : List UInt8)
    (Ends : Except Fault α → Prop) : Prop :=
  ∀ counted,
    (∃ result, TakesAll slots action rest counted result ∧ Ends result) ∨
      StopsIn slots action rest counted

theorem covers_check {result : Except Fault α} {Ends : Except Fault α → Prop}
    (hresult : ∀ region offset needed,
      result ≠ .error (.incomplete region offset needed)) (hends : Ends result) :
    Covers [] (Action.check result) rest Ends :=
  fun _ => .inl ⟨result, takesAll_check hresult, hends⟩

theorem Covers.map {Ends : Except Fault α → Prop}
    {Last : Except Fault β → Prop} (hcovers : Covers slots action rest Ends)
    (change : α → β) (hlast : ∀ result, Ends result → Last (result.map change)) :
    Covers slots (change <$> action) rest Last := by
  intro counted
  rcases hcovers counted with ⟨result, htakes, hends⟩ | hstop
  · exact .inl ⟨_, htakes.map change, hlast result hends⟩
  · exact .inr (hstop.map change)

theorem Decides.covers {stored : α → List UInt8} {Admitted : α → Prop}
    (hdecides : Decides slots action stored Admitted) (rest : List UInt8) :
    Covers slots action rest fun result =>
      ∃ value, Admitted value ∧ result = .ok value := by
  intro counted
  rcases hdecides.starts_or_stops rest with ⟨value, more, hvalue, rfl⟩ | hstop
  · exact .inl ⟨.ok value, .of_consumes (hdecides.consumes value hvalue)
      (hdecides.length_stored value hvalue), value, hvalue, rfl⟩
  · exact .inr (hstop counted)

theorem Decides.covers_bind {stored : α → List UInt8} {Admitted : α → Prop}
    (hdecides : Decides left action stored Admitted)
    {next : α → Action Reader β} {Ends : Except Fault β → Prop}
    (hnext : ∀ value more, Admitted value → rest = stored value ++ more →
      Covers right (next value) more Ends) :
    Covers (left ++ right) (action >>= next) rest Ends := by
  intro counted
  rcases hdecides.starts_or_stops rest with ⟨value, more, hvalue, hrest⟩ | hstop
  · have hconsumes := hdecides.consumes value hvalue
    have hlength := hdecides.length_stored value hvalue
    have hboth := hnext value more hvalue hrest
    rw [hrest]
    rcases hboth (counted + (stored value).length) with
      ⟨result, htakes, hends⟩ | hstop
    · exact .inl ⟨result, .of_bind hconsumes hlength htakes, hends⟩
    · exact .inr (.after hconsumes hlength hstop)
  · exact .inr ((hstop counted).bind next right)

end Reader

open Reader

/-! ## The fields of a segmentation -/

namespace Segmentation

/-- The words of packed ids; none if the segment count has no width. -/
def packedSlots (vertices segments : ℕ) : List Slot :=
  match fieldWidth segments with
  | .ok width =>
      Slot.times (wordCount vertices width) [⟨.segmentationWords, 4⟩]
  | .error _ => []

/-- The fields that reading a record asks for; only the header if the limit
does not admit it. -/
def recordSlots (limit : Option ℕ) (bytes : List UInt8) : List Slot :=
  headerSlots ++
    match withinLimit limit (declaredVertices bytes) with
    | .ok _ => packedSlots (declaredVertices bytes) (declaredSegments bytes)
    | .error _ => []

theorem declared_storedHeader (header : Header) (more : List UInt8) :
    declaredVertices (storedHeader header ++ more) = header.vertices.toNat ∧
      declaredSegments (storedHeader header ++ more) =
        header.segments.toNat := by
  have hlength : (Field.bytes header.vertices).length = 4 :=
    Field.length_bytes header.vertices
  rw [declaredVertices, declaredSegments, storedHeader, List.append_assoc,
    List.drop_left' hlength, Field.number_take_word, Field.number_take_word]
  exact ⟨rfl, rfl⟩

theorem covers_decode (vertices segments : ℕ) (rest : List UInt8) :
    Covers (packedSlots vertices segments) (decode vertices segments) rest
      fun result => ∀ ids size, result = .ok (ids, size) →
        size = Slot.total (packedSlots vertices segments) := by
  rw [decode_eq, packedSlots]
  cases hwidth : fieldWidth segments with
  | error fault =>
      refine covers_check ?_ (by simp)
      rintro region offset needed ⟨⟩
      exact fieldWidth_ne_incomplete _ _ _ _ hwidth
  | ok width =>
      have hwords := (@decides_take UInt32 _ _ .segmentationWords).times
        (wordCount vertices width)
      rw [Action.check_ok_bind, ← map_eq_pure_bind]
      refine (hwords.covers rest).map _ ?_
      rintro _ ⟨words, -, rfl⟩ ids size ⟨⟩
      simp [Nat.mul_comm]

theorem covers_read (limit : Option ℕ) (rest : List UInt8) :
    Covers (recordSlots limit rest) (read limit) rest
      fun result => ∀ record, result = .ok record →
        record.size = Slot.total (recordSlots limit rest) := by
  rw [read_eq, recordSlots]
  apply decides_header.covers_bind
  rintro header more - rfl
  obtain ⟨hvertices, hsegments⟩ := declared_storedHeader header more
  rw [hvertices, hsegments]
  cases hlimit : withinLimit limit header.vertices.toNat with
  | error fault =>
      refine covers_check ?_ (by simp)
      rintro region offset needed ⟨⟩
      exact withinLimit_ne_incomplete _ _ _ _ _ hlimit
  | ok _ =>
      rw [Action.check_ok_bind, readBody, ← map_eq_pure_bind]
      refine (covers_decode _ _ more).map _ ?_
      rintro (fault | ⟨ids, size⟩) hends record ⟨⟩
      rw [Slot.total_append, ← hends ids size rfl]
      rfl

end Segmentation

theorem PersistenceIndex.covers_read (rest : List UInt8) :
    Covers (recordSlots (declaredMapping rest) (declaredConstraints rest)) read
      rest fun result => ∀ decoded, result = .ok decoded →
        decoded.size = Slot.total
          (recordSlots (declaredMapping rest) (declaredConstraints rest)) := by
  intro counted
  rcases takeLists_starts_or_stops rest with
    ⟨index, mappingCount, constraintCount, more, hmapping, hconstraints,
      rfl⟩ | hstop
  · left
    obtain ⟨hfirst, hsecond, -⟩ :=
      step_read_of_stored hmapping hconstraints more rfl
    have hlength : (storedIndex mappingCount constraintCount index).length =
        Slot.total (recordSlots mappingCount.toNat constraintCount.toNat) := by
      rw [length_storedIndex, total_recordSlots, hmapping, hconstraints]
    rw [hfirst, hsecond]
    refine ⟨_, .of_consumes
      (consumes_read hmapping.symm hconstraints.symm) hlength, ?_⟩
    rintro decoded ⟨⟩
    exact hlength
  · exact .inr (stopsIn_read (hstop counted))

/-! ## The fields of a reading -/

namespace ReadStep

/-- The only field of a single value. -/
def single? : ReadStep → Option Slot
  | .word region => some ⟨region, 4⟩
  | .integer region => some ⟨region, 4⟩
  | .scalar region => some ⟨region, 8⟩
  | _ => none

/-- The fields that a reading asks for, given the bytes in front of it. -/
def slots (bytes : List UInt8) : ReadStep → List Slot
  | .word region => [⟨region, 4⟩]
  | .integer region => [⟨region, 4⟩]
  | .scalar region => [⟨region, 8⟩]
  | .header => Segmentation.headerSlots
  | .segmentation limit => Segmentation.recordSlots limit bytes
  | .packed vertices segments => Segmentation.packedSlots vertices segments
  | .index => PersistenceIndex.recordSlots
      (PersistenceIndex.declaredMapping bytes)
      (PersistenceIndex.declaredConstraints bytes)

theorem slots_of_single {step : ReadStep} {slot : Slot}
    (hsingle : step.single? = some slot) (bytes : List UInt8) :
    step.slots bytes = [slot] ∧ 0 < slot.size := by
  cases step <;> simp only [single?, Option.some.injEq, reduceCtorEq] at hsingle
  all_goals subst slot; simp [slots]

end ReadStep

/-- The bytes that a reading reports. -/
def Reading.reported : Reading → Option ℕ
  | .segmentation record => some record.size
  | .packed _ size => some size
  | .index content => some content.size
  | _ => none

/-- A result that reports the bytes of all fields, if it reports any. -/
def ReportsTotal (slots : List Slot) (result : Except Fault Reading) : Prop :=
  ∀ reading size, result = .ok reading → reading.reported = some size →
    size = Slot.total slots

theorem Reader.Decides.covers_found {α : Type} {action : Action Reader α}
    {slots : List Slot} {stored : α → List UInt8} {Admitted : α → Prop}
    (hdecides : Decides slots action stored Admitted) (rest : List UInt8)
    (found : α → Reading) (hfound : ∀ value, (found value).reported = none) :
    Covers slots (found <$> action) rest (ReportsTotal slots) := by
  refine (hdecides.covers rest).map found ?_
  rintro _ ⟨value, -, rfl⟩ _ size ⟨⟩ hsize
  rw [hfound value] at hsize
  cases hsize

theorem ReadStep.covers (step : ReadStep) (rest : List UInt8) :
    Covers (step.slots rest) step.perform rest
      (ReportsTotal (step.slots rest)) := by
  cases step with
  | word region =>
      exact (@decides_take UInt32 _ _ region).covers_found rest _ fun _ => rfl
  | integer region =>
      exact (@decides_take Int32 _ _ region).covers_found rest _ fun _ => rfl
  | scalar region =>
      exact (@decides_take Scalar _ _ region).covers_found rest _ fun _ => rfl
  | header =>
      exact Segmentation.decides_header.covers_found rest _ fun _ => rfl
  | segmentation limit =>
      refine (Segmentation.covers_read limit rest).map _ ?_
      rintro (fault | record) hends _ size ⟨⟩ ⟨⟩
      exact hends record rfl
  | packed vertices segments =>
      rw [perform, ← map_eq_pure_bind]
      refine (Segmentation.covers_decode vertices segments rest).map _ ?_
      rintro (fault | ⟨ids, size⟩) hends _ _ ⟨⟩ ⟨⟩
      exact hends ids size rfl
  | index =>
      refine (PersistenceIndex.covers_read rest).map _ ?_
      rintro (fault | decoded) hends _ size ⟨⟩ ⟨⟩
      exact hends decoded rfl

/-! ## One reading -/

/-- What a reading from a reader with these bytes counts.  `taken` are the
fields that it found whole. -/
structure Accounts (step : ReadStep) (rest : List UInt8) (counted : ℕ)
    (outcome : Except Fault Reading × Reader) : Prop where
  reported : ∀ reading size, outcome.1 = .ok reading →
    reading.reported = some size → outcome.2.counted = counted + size
  failed : ∀ fault, outcome.1 = .error fault →
    ∃ taken missing, step.slots rest = taken ++ missing ∧
      Slot.total taken ≤ rest.length ∧
      outcome.2.counted = counted + Slot.total taken ∧
      (missing = [] ∧
          (∀ region offset needed, fault ≠ .incomplete region offset needed) ∨
        ∃ slot more, missing = slot :: more ∧
          rest.length < Slot.total taken + slot.size ∧
          fault = .incomplete slot.region (counted + Slot.total taken) slot.size)

theorem ReadStep.accounts (step : ReadStep) (rest : List UInt8) (counted : ℕ) :
    Accounts step rest counted (step.perform.step (.holding rest counted)) := by
  rcases step.covers rest counted with
    ⟨result, ⟨hfits, hstep, hnot⟩, hreports⟩ |
      ⟨before, slot, after, hslots, hbefore, hslot, hstep⟩
  · rw [hstep]
    constructor
    · intro reading size hresult hsize
      rw [hreports reading size hresult hsize]
      rfl
    · rintro fault rfl
      refine ⟨step.slots rest, [], by simp, hfits, rfl, .inl ⟨rfl, ?_⟩⟩
      intro region offset needed hfault
      exact hnot region offset needed (congrArg _ hfault)
  · rw [hstep]
    constructor
    · rintro reading size ⟨⟩
    · rintro fault ⟨⟩
      exact ⟨before, slot :: after, hslots, hbefore, rfl,
        .inr ⟨slot, after, rfl, hslot, rfl⟩⟩

/-! ## Runs -/

/-- Where and on behalf of what a reading came up short. -/
def shortfall : Except Fault Reading → Option (Region × ℕ × ℕ)
  | .error (.incomplete region offset needed) => some (region, offset, needed)
  | _ => none

theorem shortfall_eq_none {result : Except Fault Reading}
    (hnot : ∀ region offset needed,
      result ≠ .error (.incomplete region offset needed)) :
    shortfall result = none := by
  unfold shortfall
  split
  · exact absurd rfl (hnot _ _ _)
  · rfl

/-- The first shortfall of a run. -/
def firstShortfall (run : List (Except Fault Reading × Reader)) :
    Option (Region × ℕ × ℕ) :=
  run.findSome? fun outcome => shortfall outcome.1

/-- The state of a reader over some bytes before and after a shortfall. -/
def Tracks (bytes : List UInt8) : Option (Region × ℕ × ℕ) → Reader → Prop
  | none, reader =>
      reader.counted ≤ bytes.length ∧
        reader = .holding (bytes.drop reader.counted) reader.counted
  | some (_, offset, needed), reader =>
      offset ≤ bytes.length ∧ bytes.length < offset + needed ∧
        reader = .holding [] offset

/-- What is left to see of a reading once the count stands still. -/
structure Frozen (offset : ℕ) (step : ReadStep)
    (outcome : Except Fault Reading × Reader) : Prop where
  reader_eq : outcome.2 = .holding [] offset
  missed : ∀ slot, step.single? = some slot →
    outcome.1 = .error (.incomplete slot.region offset slot.size)

theorem ReadStep.frozen (step : ReadStep) (offset : ℕ) :
    Frozen offset step (step.perform.step (.holding [] offset)) := by
  rcases step.covers [] offset with
    ⟨result, ⟨hfits, hstep, -⟩, -⟩ |
      ⟨before, slot, after, hslots, hbefore, hslot, hstep⟩
  · have hnone : Slot.total (step.slots []) = 0 := Nat.le_zero.mp hfits
    rw [hnone] at hstep
    rw [hstep]
    refine ⟨rfl, ?_⟩
    intro slot hsingle
    obtain ⟨hslots, hpos⟩ := slots_of_single hsingle []
    rw [hslots] at hnone
    simp only [Slot.total_cons, Slot.total_nil] at hnone
    omega
  · have hnone : Slot.total before = 0 := Nat.le_zero.mp hbefore
    rw [hnone] at hstep
    rw [hstep]
    refine ⟨rfl, ?_⟩
    intro only hsingle
    rw [(slots_of_single hsingle []).1] at hslots
    obtain ⟨rfl, hcons⟩ : before = [] ∧ [only] = slot :: after := by
      cases before with
      | nil => exact ⟨rfl, hslots⟩
      | cons first others => simp at hslots
    obtain ⟨rfl, -⟩ := List.cons.inj hcons
    rfl

theorem frozen_runAll (offset : ℕ) (steps : List ReadStep) :
    List.Forall₂ (Frozen offset) steps
        (Action.runAll (steps.map ReadStep.perform) (.holding [] offset)) ∧
      Action.lastState (steps.map ReadStep.perform) (.holding [] offset) =
        .holding [] offset := by
  induction steps with
  | nil => exact ⟨.nil, rfl⟩
  | cons step steps ih =>
      have hstep := step.frozen offset
      simp only [List.map_cons, Action.runAll, Action.lastState]
      rw [hstep.reader_eq]
      exact ⟨.cons hstep ih.1, ih.2⟩

theorem ReadStep.tracks (step : ReadStep) {bytes : List UInt8} {counted : ℕ}
    (hcounted : counted ≤ bytes.length) :
    let outcome := step.perform.step (.holding (bytes.drop counted) counted)
    Tracks bytes (shortfall outcome.1) outcome.2 := by
  intro outcome
  rcases step.covers (bytes.drop counted) counted with
    ⟨result, ⟨hfits, hstep, hnot⟩, -⟩ |
      ⟨before, slot, after, -, hbefore, hslot, hstep⟩
  · have houtcome : outcome = _ := hstep
    rw [houtcome, shortfall_eq_none hnot]
    rw [List.length_drop] at hfits
    simp only [Tracks, Reader.holding, List.drop_drop]
    exact ⟨by omega, trivial⟩
  · have houtcome : outcome = _ := hstep
    rw [houtcome]
    rw [List.length_drop] at hbefore hslot
    exact ⟨by omega, by omega, rfl⟩

/-- The run lemma.  Up to the first shortfall the count keeps step with the
bytes, and from there on it stands still. -/
theorem tracks_runAll {bytes : List UInt8} {counted : ℕ}
    (hcounted : counted ≤ bytes.length) (steps : List ReadStep) :
    Tracks bytes
      (firstShortfall (Action.runAll (steps.map ReadStep.perform)
        (.holding (bytes.drop counted) counted)))
      (Action.lastState (steps.map ReadStep.perform)
        (.holding (bytes.drop counted) counted)) := by
  induction steps generalizing counted with
  | nil => exact ⟨hcounted, rfl⟩
  | cons step steps ih =>
      have htracks := step.tracks hcounted
      simp only [List.map_cons, Action.runAll, Action.lastState, firstShortfall,
        List.findSome?_cons] at htracks ⊢
      cases hshort : shortfall
          (step.perform.step (.holding (bytes.drop counted) counted)).1 with
      | none =>
          rw [hshort] at htracks
          obtain ⟨hle, hreader⟩ := htracks
          rw [hreader]
          exact ih hle
      | some short =>
          rw [hshort] at htracks
          obtain ⟨hle, hlt, hreader⟩ := htracks
          rw [hreader, (frozen_runAll short.2.1 steps).2]
          exact ⟨hle, hlt, rfl⟩

/-- The state that any sequence of readings reaches.  Either none of them came
up short, and the unread bytes are those behind the counted ones; or one did,
and the count stands for good where the first field that did not fit starts:
nothing is left, and every single value is missed at this place.  From this
state every reading, whatever its kind, counts what it reports if it succeeds,
and exactly the fields that it found whole if it fails. -/
theorem reader_accounting (bytes : List UInt8) (steps : List ReadStep) :
    let run := Action.runAll (steps.map ReadStep.perform) (.ofList bytes)
    let reader := Action.lastState (steps.map ReadStep.perform) (.ofList bytes)
    reader.counted ≤ bytes.length ∧
      (firstShortfall run = none ∧
          reader.unread = bytes.drop reader.counted ∨
        ∃ region offset needed,
          firstShortfall run = some (region, offset, needed) ∧
          bytes.length < offset + needed ∧
          reader.unread = [] ∧ reader.counted = offset ∧
          ∀ later, List.Forall₂ (Frozen offset) later
            (Action.runAll (later.map ReadStep.perform) reader)) ∧
      ∀ step : ReadStep, Accounts step reader.unread reader.counted
        (step.perform.step reader) := by
  intro run reader
  have htracks : Tracks bytes (firstShortfall run) reader :=
    tracks_runAll (Nat.zero_le bytes.length) steps
  cases hshort : firstShortfall run with
  | none =>
      rw [hshort] at htracks
      obtain ⟨hle, hreader⟩ := htracks
      refine ⟨hle, .inl ⟨rfl, ?_⟩, ?_⟩
      · rw [hreader]
        rfl
      · intro step
        rw [hreader]
        exact step.accounts _ _
  | some short =>
      obtain ⟨region, offset, needed⟩ := short
      rw [hshort] at htracks
      obtain ⟨hle, hlt, hreader⟩ := htracks
      rw [hreader]
      refine ⟨hle, .inr ⟨region, offset, needed, rfl, hlt, rfl, rfl, ?_⟩, ?_⟩
      · exact fun later => (frozen_runAll offset later).1
      · exact fun step => step.accounts _ _

end PackedTopology
