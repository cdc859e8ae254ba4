import Mathlib.Algebra.Order.Ring.Nat
import Mathlib.Tactic.Ring
import PackedTopology.Segmentation.BitQueue

/-!
# The queue of bits as a number

The live bits of a queue are one number.  Appending a field adds it above the
live bits, and taking a word or a field divides.  The shifts of the 64-bit
word compute exactly these numbers as long as the live bits and the new field
have room, which they have in a settled queue.
-/

namespace PackedTopology.BitQueue

variable {queue : BitQueue} {width : ℕ}

theorem Settled.bits_lt (hsettled : queue.Settled) :
    queue.bits.toNat < 2 ^ queue.held := by
  have hzero := hsettled.bits_above
  rw [Nat.shiftRight_eq_div_pow] at hzero
  exact (Nat.div_eq_zero_iff_lt (Nat.two_pow_pos _)).mp hzero

theorem settled_of_bits_lt (hheld : queue.held < wordBits)
    (hbits : queue.bits.toNat < 2 ^ queue.held) : queue.Settled := by
  refine ⟨hheld, ?_⟩
  rw [Nat.shiftRight_eq_div_pow]
  exact Nat.div_eq_of_lt hbits

private theorem toNat_shift (held : ℕ) (hheld : held < 64) :
    (UInt64.ofNat held).toNat % 64 = held := by
  rw [UInt64.toNat_ofNat']
  omega

/-! ## A field enters -/

@[simp] theorem append_held (value : UInt32) :
    (queue.append value width).held = queue.held + width :=
  rfl

/-- No bit of a field is shifted out of the queue. -/
theorem shifted_toNat (hsettled : queue.Settled) {value : UInt32}
    (hvalue : value.toNat < 2 ^ width) (hwidth : width ≤ 32) :
    (value.toUInt64 <<< UInt64.ofNat queue.held).toNat =
      value.toNat * 2 ^ queue.held := by
  have hheld : queue.held < 32 := hsettled.held_lt
  have hroom : value.toNat * 2 ^ queue.held < 2 ^ 64 := by
    calc
      value.toNat * 2 ^ queue.held < 2 ^ width * 2 ^ queue.held :=
        Nat.mul_lt_mul_of_pos_right hvalue (Nat.two_pow_pos _)
      _ = 2 ^ (width + queue.held) := (pow_add 2 width queue.held).symm
      _ ≤ 2 ^ 64 := Nat.pow_le_pow_right (by decide) (by omega)
  rw [UInt64.toNat_shiftLeft, UInt32.toNat_toUInt64,
    toNat_shift queue.held (by omega), Nat.shiftLeft_eq, Nat.mod_eq_of_lt hroom]

theorem append_bits_toNat (hsettled : queue.Settled) {value : UInt32}
    (hvalue : value.toNat < 2 ^ width) (hwidth : width ≤ 32) :
    (queue.append value width).bits.toNat =
      queue.bits.toNat + 2 ^ queue.held * value.toNat := by
  have hor := Nat.shiftLeft_add_eq_or_of_lt hsettled.bits_lt value.toNat
  rw [append]
  simp only [UInt64.toNat_or]
  rw [shifted_toNat hsettled hvalue hwidth, Nat.or_comm, ← Nat.shiftLeft_eq,
    ← hor, Nat.shiftLeft_eq]
  ring

theorem append_bits_lt (hsettled : queue.Settled) {value : UInt32}
    (hvalue : value.toNat < 2 ^ width) (hwidth : width ≤ 32) :
    (queue.append value width).bits.toNat < 2 ^ (queue.held + width) := by
  rw [append_bits_toNat hsettled hvalue hwidth, pow_add]
  have hbits := hsettled.bits_lt
  calc
    queue.bits.toNat + 2 ^ queue.held * value.toNat <
        2 ^ queue.held * (value.toNat + 1) := by
      rw [Nat.mul_succ]
      omega
    _ ≤ 2 ^ queue.held * 2 ^ width := Nat.mul_le_mul_left _ hvalue

/-! ## A word leaves -/

theorem takeWord_of_lt (hheld : queue.held < wordBits) :
    queue.takeWord = none := by
  rw [takeWord, if_pos hheld]

theorem takeWord_of_le (hheld : wordBits ≤ queue.held) :
    ∃ word rest, queue.takeWord = some (word, rest) ∧
      word.toNat = queue.bits.toNat % 2 ^ 32 ∧
      rest.bits.toNat = queue.bits.toNat / 2 ^ 32 ∧
      rest.held = queue.held - 32 := by
  refine ⟨_, _, if_neg (Nat.not_lt_of_le hheld), ?_, ?_, rfl⟩
  · exact UInt64.toNat_toUInt32 queue.bits
  · rw [UInt64.toNat_shiftRight, Nat.shiftRight_eq_div_pow]
    rfl

/-! ## A field leaves -/

private theorem mask_toNat (hwidth : width ≤ 32) :
    ((1 <<< UInt64.ofNat width : UInt64) - 1).toNat = 2 ^ width - 1 := by
  have hpow : 2 ^ width < 2 ^ 64 := Nat.pow_lt_pow_right (by decide) (by omega)
  have hshift : (1 <<< UInt64.ofNat width : UInt64).toNat = 2 ^ width := by
    rw [UInt64.toNat_shiftLeft, toNat_shift width (by omega)]
    simpa [Nat.shiftLeft_eq] using hpow
  have hone : (1 : UInt64) ≤ 1 <<< UInt64.ofNat width := by
    rw [UInt64.le_iff_toNat_le, hshift]
    exact Nat.two_pow_pos width
  rw [UInt64.toNat_sub_of_le _ _ hone, hshift]
  rfl

theorem extract_fst_toNat (hwidth : width ≤ 32) :
    (queue.extract width).1.toNat = queue.bits.toNat % 2 ^ width := by
  have hsmall : queue.bits.toNat % 2 ^ width < 2 ^ 32 :=
    (Nat.mod_lt _ (Nat.two_pow_pos width)).trans_le
      (Nat.pow_le_pow_right (by decide) hwidth)
  simp only [extract, UInt64.toNat_toUInt32, UInt64.toNat_and]
  rw [mask_toNat hwidth, Nat.and_two_pow_sub_one_eq_mod, Nat.mod_eq_of_lt hsmall]

theorem extract_snd_bits_toNat (hwidth : width ≤ 32) :
    (queue.extract width).2.bits.toNat = queue.bits.toNat / 2 ^ width := by
  simp only [extract, UInt64.toNat_shiftRight]
  rw [toNat_shift width (by omega), Nat.shiftRight_eq_div_pow]

@[simp] theorem extract_snd_held :
    (queue.extract width).2.held = queue.held - width :=
  rfl

theorem extract_bits_lt (hwidth : width ≤ 32) (hheld : width ≤ queue.held)
    (hbits : queue.bits.toNat < 2 ^ queue.held) :
    (queue.extract width).2.bits.toNat < 2 ^ (queue.extract width).2.held := by
  rw [extract_snd_bits_toNat hwidth, extract_snd_held]
  apply Nat.div_lt_of_lt_mul
  rwa [← pow_add, Nat.add_sub_cancel' hheld]

end PackedTopology.BitQueue
