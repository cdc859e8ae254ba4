import Mathlib.Algebra.BigOperators.Group.List.Basic
import Mathlib.Tactic.Ring
import PackedTopology.Proofs.Consumption

/-!
# Fields that lie one behind the other

What an action asks for is a list of fields, each with its region and its size.
On any bytes it either consumes the stored form of an admitted value or stops at
the first field that the bytes do not wholly contain.  An action that is put
together from others asks for their fields in order, so both outcomes follow
from those of its parts.
-/

namespace PackedTopology

/-- A field of a record: the region it is read on behalf of, and its bytes. -/
structure Slot where
  region : Region
  size : ℕ

/-- The bytes of fields that lie one behind the other. -/
def Slot.total (slots : List Slot) : ℕ :=
  (slots.map Slot.size).sum

@[simp] theorem Slot.total_nil : Slot.total [] = 0 :=
  rfl

@[simp] theorem Slot.total_cons (slot : Slot) (slots : List Slot) :
    Slot.total (slot :: slots) = slot.size + Slot.total slots := by
  simp [Slot.total]

@[simp] theorem Slot.total_append (left right : List Slot) :
    Slot.total (left ++ right) = Slot.total left + Slot.total right := by
  simp [Slot.total]

/-- The fields of a number of entries, each of which has the same fields. -/
def Slot.times (count : ℕ) (slots : List Slot) : List Slot :=
  (List.replicate count slots).flatten

theorem Slot.times_succ (count : ℕ) (slots : List Slot) :
    Slot.times (count + 1) slots = slots ++ Slot.times count slots := by
  simp [Slot.times, List.replicate_succ]

@[simp] theorem Slot.total_times (count : ℕ) (slots : List Slot) :
    Slot.total (Slot.times count slots) = count * Slot.total slots := by
  induction count with
  | zero => simp [Slot.times]
  | succ count ih =>
      rw [Slot.times_succ, Slot.total_append, ih]
      ring

namespace Reader

variable {α β : Type} {action : Action Reader α} {rest : List UInt8}
  {counted : ℕ} {left right slots : List Slot}

/-! ## Stopping within fields -/

/-- The action stops at the first of these fields that the bytes do not
wholly contain. -/
def StopsIn (slots : List Slot) (action : Action Reader α) (rest : List UInt8)
    (counted : ℕ) : Prop :=
  ∃ before slot after, slots = before ++ slot :: after ∧
    Slot.total before ≤ rest.length ∧
    rest.length < Slot.total before + slot.size ∧
    action.step (.holding rest counted) =
      (.error (.incomplete slot.region (counted + Slot.total before) slot.size),
        .holding [] (counted + Slot.total before))

theorem StopsIn.length_lt (hstop : StopsIn slots action rest counted) :
    rest.length < Slot.total slots := by
  obtain ⟨before, slot, after, rfl, -, hlt, -⟩ := hstop
  simp only [Slot.total_append, Slot.total_cons]
  omega

theorem StopsIn.ne_ok (hstop : StopsIn slots action rest counted) (value : α)
    (after : Reader) : action.step (.holding rest counted) ≠ (.ok value, after) := by
  obtain ⟨_, _, _, -, -, -, hstep⟩ := hstop
  simp [hstep]

theorem stopsIn_take [Field α] (region : Region)
    (hshort : rest.length < Field.size α) :
    StopsIn [⟨region, Field.size α⟩] (take α region) rest counted := by
  refine ⟨[], ⟨region, Field.size α⟩, [], rfl, Nat.zero_le _, ?_, ?_⟩
  · simpa using hshort
  · simpa using step_take_of_lt region counted hshort

theorem StopsIn.bind (hstop : StopsIn left action rest counted)
    (next : α → Action Reader β) (right : List Slot) :
    StopsIn (left ++ right) (action >>= next) rest counted := by
  obtain ⟨before, slot, after, rfl, hbefore, hslot, hstep⟩ := hstop
  refine ⟨before, slot, after ++ right, by simp, hbefore, hslot, ?_⟩
  exact Action.step_bind_of_error hstep

/-- What the first action consumes lies before the field at which the second
one stops. -/
theorem StopsIn.after {bytes more : List UInt8} {value : α}
    {next : α → Action Reader β} (hfirst : Consumes action bytes value)
    (hlength : bytes.length = Slot.total left)
    (hstop : StopsIn right (next value) more (counted + bytes.length)) :
    StopsIn (left ++ right) (action >>= next) (bytes ++ more) counted := by
  obtain ⟨before, slot, after, rfl, hbefore, hslot, hstep⟩ := hstop
  refine ⟨left ++ before, slot, after, by simp, ?_, ?_, ?_⟩
  · simp only [Slot.total_append, List.length_append]
    omega
  · simp only [Slot.total_append, List.length_append]
    omega
  · rw [Action.step_bind_of_ok (hfirst more counted), hstep,
      Slot.total_append, hlength, Nat.add_assoc]

theorem StopsIn.bind_last (hstop : StopsIn slots action rest counted)
    (next : α → Action Reader β) :
    StopsIn slots (action >>= next) rest counted := by
  have hbound := hstop.bind next []
  rwa [List.append_nil] at hbound

theorem StopsIn.map (hstop : StopsIn slots action rest counted)
    (change : α → β) : StopsIn slots (change <$> action) rest counted := by
  rw [map_eq_pure_bind]
  exact hstop.bind_last _

theorem StopsIn.measured (hstop : StopsIn slots action rest counted) :
    StopsIn slots (measured action) rest counted :=
  hstop.bind_last _

/-! ## Stored forms or a stop -/

/-- Any bytes start with the stored form of an admitted value, which the action
consumes, or make the action stop in one of the fields. -/
structure Decides (slots : List Slot) (action : Action Reader α)
    (stored : α → List UInt8) (Admitted : α → Prop) : Prop where
  consumes : ∀ value, Admitted value → Consumes action (stored value) value
  length_stored : ∀ value, Admitted value →
    (stored value).length = Slot.total slots
  starts_or_stops : ∀ rest : List UInt8,
    (∃ value more, Admitted value ∧ rest = stored value ++ more) ∨
      ∀ counted, StopsIn slots action rest counted

theorem decides_take [Field α] [Field.Exact α] (region : Region) :
    Decides [⟨region, Field.size α⟩] (take α region) Field.bytes
      (fun _ => True) where
  consumes value _ := consumes_take region value
  length_stored value _ := by simp
  starts_or_stops rest := by
    by_cases hsize : Field.size α ≤ rest.length
    · obtain ⟨value, more, hrest⟩ := Field.exists_eq_bytes_append hsize
      exact .inl ⟨value, more, trivial, hrest⟩
    · exact .inr fun counted => stopsIn_take region (Nat.lt_of_not_le hsize)

section

variable {stored : α → List UInt8} {Admitted : α → Prop}

theorem Decides.bind (hdecides : Decides left action stored Admitted)
    {next : α → Action Reader β} {Found : Prop}
    (hnext : ∀ value more, Admitted value → rest = stored value ++ more →
      Found ∨ ∀ counted, StopsIn right (next value) more counted) :
    Found ∨ ∀ counted,
      StopsIn (left ++ right) (action >>= next) rest counted := by
  rcases hdecides.starts_or_stops rest with ⟨value, more, hvalue, hrest⟩ | hstop
  · apply (hnext value more hvalue hrest).imp_right
    intro hstop counted
    rw [hrest]
    exact .after (hdecides.consumes value hvalue)
      (hdecides.length_stored value hvalue) (hstop _)
  · right
    intro counted
    exact (hstop counted).bind next right

theorem Decides.times (hdecides : Decides slots action stored fun _ => True)
    (count : ℕ) :
    Decides (Slot.times count slots) (action.times count)
      (fun values => values.flatMap stored)
      (fun values => values.length = count) where
  consumes values hlength := by
    rw [← hlength]
    exact consumes_times (fun value => hdecides.consumes value trivial) values
  length_stored values hlength := by
    rw [Slot.total_times, ← hlength, List.length_flatMap]
    simp [hdecides.length_stored]
  starts_or_stops rest := by
    -- The entries left to read are told from what the first one leaves.
    induction count generalizing rest with
    | zero => exact .inl ⟨[], rest, rfl, rfl⟩
    | succ count ih =>
        rw [Slot.times_succ, Action.times_succ]
        apply hdecides.bind
        intro value more _ hrest
        rcases ih more with ⟨values, last, hlength, hmore⟩ | hstop
        · left
          refine ⟨value :: values, last, by simp [hlength], ?_⟩
          rw [hrest, hmore, List.flatMap_cons, List.append_assoc]
        · right
          intro counted
          exact (hstop counted).bind_last _

end

end Reader

end PackedTopology
