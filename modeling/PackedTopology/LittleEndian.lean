import PackedTopology.Scalar

/-!
# Little-endian fields

Every field of a stream is a number written in base 256 with its lowest digit
first.  A list of bytes is read as one number, and the number of two lists put
together is the sum of theirs, the second one shifted past the first.  A type
of field values names its size and its number; the two laws say that nothing
is lost.
-/

namespace PackedTopology

namespace LittleEndian

/-- The lowest `size` digits of a number in base 256, lowest first. -/
def octets : Nat → Nat → List UInt8
  | 0, _ => []
  | size + 1, value => UInt8.ofNat value :: octets size (value / 256)

def number : List UInt8 → Nat
  | [] => 0
  | byte :: bytes => byte.toNat + 256 * number bytes

/-- One more than the largest number with `size` digits. -/
def bound : Nat → Nat
  | 0 => 1
  | size + 1 => 256 * bound size

@[simp] theorem length_octets (size value : Nat) :
    (octets size value).length = size := by
  induction size generalizing value with
  | zero => rfl
  | succ size ih => simp [octets, ih]

theorem number_octets (size value : Nat) :
    number (octets size value) = value % bound size := by
  induction size generalizing value with
  | zero => simp [octets, number, bound, Nat.mod_one]
  | succ size ih =>
      rw [octets, number, ih, bound, Nat.mod_mul]
      simp [UInt8.toNat_ofNat']

theorem number_append (left right : List UInt8) :
    number (left ++ right) =
      number left + bound left.length * number right := by
  induction left with
  | nil => simp [number, bound]
  | cons byte bytes ih =>
      simp only [List.cons_append, number, ih, List.length_cons, bound]
      rw [Nat.mul_add, Nat.mul_assoc, Nat.add_assoc]

theorem number_lt (bytes : List UInt8) :
    number bytes < bound bytes.length := by
  induction bytes with
  | nil => simp [number, bound]
  | cons byte bytes ih =>
      have hbyte : byte.toNat < 256 := byte.toNat_lt
      rw [number, List.length_cons, bound]
      omega

theorem octets_number (bytes : List UInt8) :
    octets bytes.length (number bytes) = bytes := by
  induction bytes with
  | nil => rfl
  | cons byte bytes ih =>
      have hbyte : byte.toNat < 256 := byte.toNat_lt
      have hdiv : (byte.toNat + 256 * number bytes) / 256 = number bytes := by
        omega
      have hmod : (byte.toNat + 256 * number bytes) % 256 = byte.toNat := by
        omega
      rw [List.length_cons, number, octets, hdiv, ih]
      congr 1
      apply UInt8.toNat_inj.mp
      rw [UInt8.toNat_ofNat']
      exact hmod

end LittleEndian

/-- Values that are stored in a fixed number of bytes. -/
class Field (α : Type) where
  size : Nat
  toNumber : α → Nat
  ofNumber : Nat → α
  toNumber_lt : ∀ value, toNumber value < LittleEndian.bound size
  ofNumber_toNumber : ∀ value, ofNumber (toNumber value) = value

namespace Field

variable {α : Type} [Field α]

def bytes (value : α) : List UInt8 :=
  LittleEndian.octets (size α) (toNumber value)

def ofBytes (stored : List UInt8) : α :=
  ofNumber (LittleEndian.number stored)

@[simp] theorem length_bytes (value : α) : (bytes value).length = size α :=
  LittleEndian.length_octets _ _

@[simp] theorem ofBytes_bytes (value : α) : ofBytes (bytes value) = value := by
  unfold ofBytes bytes
  rw [LittleEndian.number_octets, Nat.mod_eq_of_lt (toNumber_lt value),
    ofNumber_toNumber]

end Field

instance : Field UInt32 where
  size := 4
  toNumber := UInt32.toNat
  ofNumber := UInt32.ofNat
  toNumber_lt value := value.toNat_lt
  ofNumber_toNumber _ := UInt32.ofNat_toNat

instance : Field Int32 where
  size := 4
  toNumber value := value.toUInt32.toNat
  ofNumber number := (UInt32.ofNat number).toInt32
  toNumber_lt value := value.toUInt32.toNat_lt
  ofNumber_toNumber value := by simp

instance : Field Scalar where
  size := 8
  toNumber value := value.bits.toNat
  ofNumber number := ⟨UInt64.ofNat number⟩
  toNumber_lt value := value.bits.toNat_lt
  ofNumber_toNumber _ := by simp

end PackedTopology
