import Mathlib.Data.List.TakeWhile
import Mathlib.Data.Nat.Notation
import PackedTopology.Text.Digit

/-!
# Runs of decimal digits

A natural number is written in digits from zero to nine and in nothing else.  So
a run of digits ends where the number ends, and more digits never make a number
smaller.
-/

namespace PackedTopology.Text

/-- Only digits from zero to nine. -/
def AreDigits (text : List Char) : Prop :=
  ∀ c ∈ text, c.isDigit = true

variable {text more rest : List Char}

theorem areDigits_toDigits (number : ℕ) : AreDigits (Nat.toDigits 10 number) :=
  fun _ hc => Nat.isDigit_of_mem_toDigits (by decide) (by decide) hc

theorem areDigits_replicate (count : ℕ) : AreDigits (List.replicate count '0') := by
  intro c hc
  rw [List.eq_of_mem_replicate hc]
  rfl

theorem AreDigits.append (htext : AreDigits text) (hmore : AreDigits more) :
    AreDigits (text ++ more) := by
  intro c hc
  rcases List.mem_append.mp hc with hc | hc
  · exact htext c hc
  · exact hmore c hc

/-! ## Values -/

theorem toNat_of_isDigit {c : Char} (hdigit : c.isDigit = true) :
    48 ≤ c.toNat ∧ c.toNat ≤ 57 := by
  simpa [Char.isDigit, UInt32.le_iff_toNat_le] using hdigit

theorem digitIn_of_isDigit {c : Char} (hdigit : c.isDigit = true) :
    digitIn 10 c = some (c.toNat - '0'.toNat) := by
  have hrange := toNat_of_isDigit hdigit
  have hzero : '0'.toNat = 48 := rfl
  rw [digitIn]
  simp only [hdigit, if_true]
  rw [if_pos (by omega)]

theorem le_ofDigitChars (digits : List Char) (number : ℕ) :
    number ≤ Nat.ofDigitChars 10 digits number := by
  induction digits generalizing number with
  | nil => exact Nat.le_refl number
  | cons c digits ih =>
      rw [Nat.ofDigitChars_cons]
      exact Nat.le_trans (by omega) (ih _)

/-! ## Where a run ends -/

theorem takeWhile_digits (hdigits : AreDigits text)
    (hrest : rest.head?.all (fun c => !c.isDigit) = true) :
    (text ++ rest).takeWhile Char.isDigit = text ∧
      (text ++ rest).dropWhile Char.isDigit = rest := by
  rw [List.takeWhile_append_of_pos hdigits, List.dropWhile_append_of_pos hdigits]
  cases rest with
  | nil => simp
  | cons c rest =>
      have hc : ¬c.isDigit = true := by simpa using hrest
      rw [List.takeWhile_cons_of_neg hc, List.dropWhile_cons_of_neg hc,
        List.append_nil]
      exact ⟨rfl, rfl⟩

/-- Two numbers in front of something else are the same if the texts are. -/
theorem toDigits_append_inj {m n : ℕ} {left right : List Char}
    (hleft : left.head?.all (fun c => !c.isDigit) = true)
    (hright : right.head?.all (fun c => !c.isDigit) = true)
    (heq : Nat.toDigits 10 m ++ left = Nat.toDigits 10 n ++ right) :
    m = n ∧ left = right := by
  obtain ⟨htake, hdrop⟩ := takeWhile_digits (areDigits_toDigits m) hleft
  obtain ⟨htake', hdrop'⟩ := takeWhile_digits (areDigits_toDigits n) hright
  rw [heq] at htake hdrop
  have hdigits : Nat.toDigits 10 m = Nat.toDigits 10 n := htake.symm.trans htake'
  refine ⟨?_, hdrop.symm.trans hdrop'⟩
  rw [← @Nat.ofDigitChars_ten_toDigits m, hdigits, Nat.ofDigitChars_ten_toDigits]

end PackedTopology.Text
