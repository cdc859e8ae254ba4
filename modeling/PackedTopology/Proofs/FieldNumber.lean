import Mathlib.Algebra.BigOperators.Fin
import Mathlib.Data.Nat.Digits.Defs
import PackedTopology.Segmentation.Packed

/-!
# Fields as digits of one number

Fields of one width that are laid side by side, lowest first, are the digits
of one number.  Words are fields of thirty-two bits, so ids and the words that
hold them are two ways to write the same number.  Cutting a number into
fields again gives the fields it was made of, whatever stands above them.
-/

namespace PackedTopology.Segmentation

/-- The number that fields of one width stand for, the lowest field first. -/
def fieldNumber (width : ℕ) (fields : List UInt32) : ℕ :=
  Nat.ofDigits (2 ^ width) (fields.map UInt32.toNat)

/-- The lowest `count` fields of a number. -/
def fieldsOf (width : ℕ) : ℕ → ℕ → List UInt32
  | 0, _ => []
  | count + 1, number =>
      UInt32.ofNat (number % 2 ^ width) ::
        fieldsOf width count (number / 2 ^ width)

variable {width : ℕ}

@[simp] theorem fieldNumber_nil : fieldNumber width [] = 0 :=
  rfl

theorem fieldNumber_cons (field : UInt32) (fields : List UInt32) :
    fieldNumber width (field :: fields) =
      field.toNat + 2 ^ width * fieldNumber width fields := by
  simp [fieldNumber, Nat.ofDigits_cons]

theorem fieldNumber_append (left right : List UInt32) :
    fieldNumber width (left ++ right) =
      fieldNumber width left +
        2 ^ (left.length * width) * fieldNumber width right := by
  simp [fieldNumber, Nat.ofDigits_append, ← pow_mul, Nat.mul_comm width]

theorem fieldNumber_lt {fields : List UInt32}
    (hfields : ∀ field ∈ fields, field.toNat < 2 ^ width) :
    fieldNumber width fields < 2 ^ (fields.length * width) := by
  induction fields with
  | nil => simp
  | cons field fields ih =>
      have hfield : field.toNat < 2 ^ width := hfields field (by simp)
      have hrest := ih fun other hother => hfields other (by simp [hother])
      rw [fieldNumber_cons]
      calc
        field.toNat + 2 ^ width * fieldNumber width fields <
            2 ^ width * (fieldNumber width fields + 1) := by
          rw [Nat.mul_succ]
          omega
        _ ≤ 2 ^ width * 2 ^ (fields.length * width) :=
          Nat.mul_le_mul_left _ hrest
        _ = 2 ^ ((field :: fields).length * width) := by
          rw [← pow_add, List.length_cons, Nat.succ_mul, Nat.add_comm]

theorem fieldNumber_eq_sum (fields : List UInt32) :
    fieldNumber width fields =
      ∑ i : Fin fields.length, fields[i].toNat * 2 ^ (i.val * width) := by
  induction fields with
  | nil => simp
  | cons field fields ih =>
      rw [fieldNumber_cons, ih, Finset.mul_sum]
      simp only [List.length_cons, Fin.sum_univ_succ]
      have hshift : ∀ i : Fin fields.length,
          2 ^ width * (fields[i].toNat * 2 ^ (i * width)) =
            (field :: fields)[i.succ].toNat * 2 ^ (i.succ * width) := by
        intro i
        simp only [Fin.getElem_fin, Fin.val_succ, List.getElem_cons_succ]
        rw [Nat.succ_mul, pow_add]
        ring
      simp only [hshift]
      simp

/-- A bit of the number is a bit of the one field it lies in; above the last
field all bits are zero. -/
theorem testBit_fieldNumber (hwidth : 0 < width) {fields : List UInt32}
    (hfields : ∀ field ∈ fields, field.toNat < 2 ^ width) (bit : ℕ) :
    (fieldNumber width fields).testBit bit =
      (fields.getD (bit / width) 0).toNat.testBit (bit % width) := by
  induction fields generalizing bit with
  | nil => simp
  | cons field fields ih =>
      have hfield : field.toNat < 2 ^ width := hfields field (by simp)
      rw [fieldNumber_cons, Nat.add_comm, Nat.testBit_two_pow_mul_add _ hfield]
      by_cases hbit : bit < width
      · rw [if_pos hbit, Nat.div_eq_of_lt hbit, Nat.mod_eq_of_lt hbit]
        rfl
      · obtain ⟨above, rfl⟩ := Nat.exists_eq_add_of_le (Nat.le_of_not_lt hbit)
        rw [if_neg hbit, Nat.add_sub_cancel_left, Nat.add_div_left _ hwidth,
          Nat.add_mod_left, List.getD_cons_succ]
        exact ih (fun other hother => hfields other (by simp [hother])) above

theorem word_lt_two_pow (words : List UInt32) :
    ∀ word ∈ words, word.toNat < 2 ^ 32 :=
  fun word _ => word.toNat_lt

theorem eq_of_fieldNumber_words_eq {left right : List UInt32}
    (hlength : left.length = right.length)
    (hnumber : fieldNumber 32 left = fieldNumber 32 right) : left = right := by
  have hdigits (words : List UInt32) :
      ∀ digit ∈ words.map UInt32.toNat, digit < 2 ^ 32 := by
    rintro _ hdigit
    obtain ⟨word, hword, rfl⟩ := List.mem_map.mp hdigit
    exact word_lt_two_pow words word hword
  have hmap := Nat.ofDigits_inj_of_len_eq (by decide) (by simpa using hlength)
    (hdigits left) (hdigits right) hnumber
  exact (List.map_inj_right fun _ _ => UInt32.toNat_inj.mp).mp hmap

theorem fieldNumber_take_words (count : ℕ) (words : List UInt32) :
    fieldNumber 32 (words.take count) =
      fieldNumber 32 words % 2 ^ (count * 32) := by
  by_cases hcount : count ≤ words.length
  · have hlength : (words.take count).length = count := by simp [hcount]
    have hlt := fieldNumber_lt (word_lt_two_pow (words.take count))
    have hsplit := @fieldNumber_append 32 (words.take count) (words.drop count)
    rw [List.take_append_drop, hlength] at hsplit
    rw [hlength] at hlt
    rw [hsplit, Nat.add_mul_mod_self_left, Nat.mod_eq_of_lt hlt]
  · have hall : words.take count = words :=
      List.take_of_length_le (Nat.le_of_not_le hcount)
    have hlt := fieldNumber_lt (word_lt_two_pow words)
    have hpow : 2 ^ (words.length * 32) ≤ 2 ^ (count * 32) :=
      Nat.pow_le_pow_right (by decide) (by omega)
    rw [hall, Nat.mod_eq_of_lt (hlt.trans_le hpow)]

/-! ## Cutting a number into fields -/

@[simp] theorem length_fieldsOf (count number : ℕ) :
    (fieldsOf width count number).length = count := by
  induction count generalizing number with
  | zero => rfl
  | succ count ih => simp [fieldsOf, ih]

theorem toNat_getElem_fieldsOf (hwidth : width ≤ 32) (count number i : ℕ)
    (hi : i < (fieldsOf width count number).length) :
    (fieldsOf width count number)[i].toNat =
      number / 2 ^ (i * width) % 2 ^ width := by
  induction count generalizing number i with
  | zero => simp [fieldsOf] at hi
  | succ count ih =>
      cases i with
      | zero =>
          have hsmall : number % 2 ^ width < 2 ^ 32 :=
            (Nat.mod_lt _ (Nat.two_pow_pos width)).trans_le
              (Nat.pow_le_pow_right (by decide) hwidth)
          simpa [fieldsOf, UInt32.toNat_ofNat'] using hsmall
      | succ i =>
          have hnext : i < (fieldsOf width count (number / 2 ^ width)).length := by
            simpa [fieldsOf] using hi
          have hshift : number / 2 ^ width / 2 ^ (i * width) =
              number / 2 ^ ((i + 1) * width) := by
            rw [Nat.div_div_eq_div_mul, ← pow_add, Nat.succ_mul,
              Nat.add_comm width]
          simp only [fieldsOf, List.getElem_cons_succ]
          rw [ih (number / 2 ^ width) i hnext, hshift]

/-- What stands above the lowest fields of a number does not change them. -/
theorem fieldsOf_add_mul (count number high : ℕ) :
    fieldsOf width count (number + 2 ^ (count * width) * high) =
      fieldsOf width count number := by
  induction count generalizing number with
  | zero => rfl
  | succ count ih =>
      have hsplit : 2 ^ ((count + 1) * width) * high =
          2 ^ width * (2 ^ (count * width) * high) := by
        rw [Nat.succ_mul, pow_add]
        ring
      have hpos : 0 < 2 ^ width := Nat.two_pow_pos width
      simp only [fieldsOf]
      rw [hsplit, Nat.add_mul_mod_self_left, Nat.add_mul_div_left _ _ hpos, ih]

theorem fieldsOf_mod (count number : ℕ) {bits : ℕ}
    (hbits : count * width ≤ bits) :
    fieldsOf width count (number % 2 ^ bits) = fieldsOf width count number := by
  have hpow : 2 ^ bits = 2 ^ (count * width) * 2 ^ (bits - count * width) := by
    rw [← pow_add, Nat.add_sub_cancel' hbits]
  have hsplit := Nat.mod_add_div number (2 ^ bits)
  conv_rhs => rw [← hsplit, hpow, Nat.mul_assoc, fieldsOf_add_mul]
  rw [hpow]

/-- Laying the fields of a number side by side gives back its lowest bits. -/
theorem fieldNumber_fieldsOf (hwidth : width ≤ 32) (count number : ℕ) :
    fieldNumber width (fieldsOf width count number) =
      number % 2 ^ (count * width) := by
  induction count generalizing number with
  | zero => simp [fieldsOf, Nat.mod_one]
  | succ count ih =>
      have hfield : (UInt32.ofNat (number % 2 ^ width)).toNat =
          number % 2 ^ width :=
        UInt32.toNat_ofNat_of_lt' ((Nat.mod_lt _ (Nat.two_pow_pos width)).trans_le
          (Nat.pow_le_pow_right (by decide) hwidth))
      rw [fieldsOf, fieldNumber_cons, hfield, ih, ← Nat.mod_mul, ← pow_add,
        Nat.succ_mul, Nat.add_comm width]

/-- Fields are found again in the number they were laid into. -/
theorem fieldsOf_fieldNumber {fields : List UInt32}
    (hfields : ∀ field ∈ fields, field.toNat < 2 ^ width) :
    fieldsOf width fields.length (fieldNumber width fields) = fields := by
  induction fields with
  | nil => rfl
  | cons field fields ih =>
      have hfield : field.toNat < 2 ^ width := hfields field (by simp)
      have hpos : 0 < 2 ^ width := Nat.two_pow_pos width
      have hdiv : (field.toNat + 2 ^ width * fieldNumber width fields) / 2 ^ width =
          fieldNumber width fields := by
        rw [Nat.add_mul_div_left _ _ hpos, Nat.div_eq_of_lt hfield, Nat.zero_add]
      rw [fieldNumber_cons, List.length_cons, fieldsOf, hdiv,
        Nat.add_mul_mod_self_left, Nat.mod_eq_of_lt hfield, UInt32.ofNat_toNat,
        ih fun other hother => hfields other (by simp [hother])]

/-- Fields are cut off one by one, lowest first. -/
theorem fieldsOf_succ_of_eq {field : UInt32} {number rest : ℕ}
    (hfield : field.toNat < 2 ^ width)
    (hnumber : number = field.toNat + 2 ^ width * rest) (count : ℕ) :
    fieldsOf width (count + 1) number = field :: fieldsOf width count rest := by
  have hdiv : number / 2 ^ width = rest := by
    rw [hnumber, Nat.add_mul_div_left _ _ (Nat.two_pow_pos width),
      Nat.div_eq_of_lt hfield, Nat.zero_add]
  have hmod : number % 2 ^ width = field.toNat := by
    rw [hnumber, Nat.add_mul_mod_self_left, Nat.mod_eq_of_lt hfield]
  rw [fieldsOf, hdiv, hmod, UInt32.ofNat_toNat]

end PackedTopology.Segmentation
