import Mathlib.Algebra.Order.Ring.Nat
import Mathlib.Data.List.TakeDrop
import Mathlib.Tactic.Ring
import PackedTopology.Proofs.Action
import PackedTopology.Proofs.Source
import PackedTopology.Stream.Reader

/-!
# Readers over a list of bytes

A reader whose source has all its bytes at hand is given by the bytes that are
left and the count of the bytes it got.  A field that is there whole is taken
off the front and counted.  A field that is not there whole uses up what is
left, is not counted, and the fault names the offset at which it starts.
-/

namespace PackedTopology

namespace LittleEndian

theorem bound_eq_two_pow (size : ℕ) : bound size = 2 ^ (size * 8) := by
  induction size with
  | zero => rfl
  | succ size ih =>
      have hbits : (size + 1) * 8 = 8 + size * 8 := by omega
      rw [bound, ih, hbits, pow_add]
      rfl

/-- The number of the lowest bytes of a list. -/
theorem number_take (count : ℕ) (bytes : List UInt8) :
    number (bytes.take count) = number bytes % 2 ^ (count * 8) := by
  by_cases hcount : count ≤ bytes.length
  · have hlength : (bytes.take count).length = count := by simp [hcount]
    have hlt := number_lt (bytes.take count)
    rw [hlength, bound_eq_two_pow] at hlt
    have hsplit := number_append (bytes.take count) (bytes.drop count)
    rw [List.take_append_drop, hlength, bound_eq_two_pow] at hsplit
    rw [hsplit, Nat.add_mul_mod_self_left, Nat.mod_eq_of_lt hlt]
  · have hall : bytes.take count = bytes :=
      List.take_of_length_le (Nat.le_of_not_le hcount)
    have hlt : number bytes < 2 ^ (count * 8) := by
      have hbound := number_lt bytes
      rw [bound_eq_two_pow] at hbound
      exact hbound.trans_le (Nat.pow_le_pow_right (by decide) (by omega))
    rw [hall, Nat.mod_eq_of_lt hlt]

end LittleEndian

theorem Field.number_bytes {α : Type} [Field α] (value : α) :
    LittleEndian.number (bytes value) = toNumber value := by
  rw [bytes, LittleEndian.number_octets, Nat.mod_eq_of_lt (toNumber_lt value)]

theorem Field.number_take_word (word : UInt32) (more : List UInt8) :
    LittleEndian.number ((bytes word ++ more).take 4) = word.toNat := by
  have hlength : (bytes word).length = 4 := Field.length_bytes word
  rw [List.take_left' hlength]
  exact number_bytes word

/-- Fields in whose bytes every number below the bound is stored by a value of
its own, so that no bit of a stored form is lost on reading it. -/
class Field.Exact (α : Type) [Field α] : Prop where
  toNumber_ofNumber : ∀ number, number < LittleEndian.bound (Field.size α) →
    Field.toNumber (Field.ofNumber number : α) = number

namespace Field

instance : Exact UInt32 where
  toNumber_ofNumber _ hlt := UInt32.toNat_ofNat_of_lt' hlt

instance : Exact Int32 where
  toNumber_ofNumber number hlt := by
    have hword : number < 4294967296 := hlt
    simpa [toNumber, ofNumber] using hword

instance : Exact Scalar where
  toNumber_ofNumber _ hlt := UInt64.toNat_ofNat_of_lt' hlt

variable {α : Type} [Field α] [Exact α]

theorem bytes_ofBytes {stored : List UInt8} (hlength : stored.length = size α) :
    bytes (ofBytes stored : α) = stored := by
  have hlt := LittleEndian.number_lt stored
  rw [hlength] at hlt
  unfold bytes ofBytes
  rw [Exact.toNumber_ofNumber _ hlt, ← hlength, LittleEndian.octets_number]

/-- Bytes that are long enough start with the stored form of a value. -/
theorem exists_eq_bytes_append {rest : List UInt8}
    (hsize : size α ≤ rest.length) :
    ∃ (value : α) (more : List UInt8), rest = bytes value ++ more := by
  refine ⟨ofBytes (rest.take (size α)), rest.drop (size α), ?_⟩
  rw [bytes_ofBytes (by simp [hsize]), List.take_append_drop]

end Field

theorem Field.toNat_ofBytes_word {stored : List UInt8}
    (hlength : stored.length = 4) :
    (Field.ofBytes stored : UInt32).toNat = LittleEndian.number stored := by
  have hlt := LittleEndian.number_lt stored
  rw [hlength] at hlt
  show (UInt32.ofNat (LittleEndian.number stored)).toNat = _
  rw [UInt32.toNat_ofNat']
  exact Nat.mod_eq_of_lt hlt

namespace Reader

/-- A reader with all the bytes that are left at hand. -/
def holding (rest : List UInt8) (counted : ℕ) : Reader :=
  ⟨.ofList rest, counted⟩

@[simp] theorem unread_holding (rest : List UInt8) (counted : ℕ) :
    (holding rest counted).unread = rest :=
  rfl

theorem ofList_eq_holding (bytes : List UInt8) : ofList bytes = holding bytes 0 :=
  rfl

variable {α : Type} [Field α] (region : Region) {rest : List UInt8}
  (counted : ℕ)

theorem step_takeBytes_holding (size : ℕ) :
    (takeBytes region size).step (holding rest counted) =
      if size ≤ rest.length then
        (.ok (rest.take size), holding (rest.drop size) (counted + size))
      else
        (.error (.incomplete region counted size), holding [] counted) := by
  have hfill := Source.fill_ofList size rest
  simp only [takeBytes, Action.step_of, holding, hfill]
  by_cases hsize : size ≤ rest.length
  · rw [if_pos hsize, if_pos hsize]
  · rw [if_neg hsize, if_neg hsize]

theorem step_take_of_le (hsize : Field.size α ≤ rest.length) :
    (take α region).step (holding rest counted) =
      (.ok (Field.ofBytes (rest.take (Field.size α))),
        holding (rest.drop (Field.size α)) (counted + Field.size α)) := by
  have hbytes := @step_takeBytes_holding region rest counted (Field.size α)
  rw [if_pos hsize] at hbytes
  rw [take, Action.step_bind_of_ok hbytes, Action.step_pure]

theorem step_take_of_lt (hsize : rest.length < Field.size α) :
    (take α region).step (holding rest counted) =
      (.error (.incomplete region counted (Field.size α)), holding [] counted) := by
  have hbytes := @step_takeBytes_holding region rest counted (Field.size α)
  rw [if_neg (Nat.not_le_of_lt hsize)] at hbytes
  rw [take, Action.step_bind_of_error hbytes]

theorem step_takeWord_of_le (hword : 4 ≤ rest.length) :
    (take UInt32 region).step (holding rest counted) =
      (.ok (Field.ofBytes (rest.take 4)),
        holding (rest.drop 4) (counted + 4)) :=
  step_take_of_le region counted hword

theorem step_takeWord_of_lt (hword : rest.length < 4) :
    (take UInt32 region).step (holding rest counted) =
      (.error (.incomplete region counted 4), holding [] counted) :=
  step_take_of_lt region counted hword

end Reader

end PackedTopology
