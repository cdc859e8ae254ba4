import PackedTopology.Decimal.Layout
import PackedTopology.Decimal.Literal
import PackedTopology.Proofs.Digits
import PackedTopology.Proofs.ShortestDecimal

/-!
# Numbers that are read as they were written

However a layout places the point, and whether it writes an exponent or not, the
digits of a text stand for the same decimal, and this is one that reads back.  So
the text of a scalar is read as that scalar, bit by bit, the zeros and the
infinities included.  Only a not-a-number is read as another one, namely always
the same.
-/

namespace PackedTopology

open Scalar Text

namespace Literal

variable {text whole fraction rest : List Char} {exponent : ℤ}

/-! ## Zeros -/

theorem numberOf_append_zeros (text : List Char) (count : ℕ) :
    numberOf (text ++ List.replicate count '0') = numberOf text * 10 ^ count := by
  induction count with
  | zero => rw [List.replicate_zero, List.append_nil, pow_zero, Nat.mul_one]
  | succ count ih =>
      have hlast : ∀ digits, numberOf (digits ++ ['0']) = 10 * numberOf digits :=
        fun digits => List.foldl_concat ..
      rw [List.replicate_succ', ← List.append_assoc, hlast, ih, pow_succ]
      ring

theorem numberOf_zeros_append (text : List Char) (count : ℕ) :
    numberOf (List.replicate count '0' ++ text) = numberOf text := by
  induction count with
  | zero => rfl
  | succ count ih =>
      rw [List.replicate_succ, List.cons_append]
      exact ih

theorem exists_zeros_of_digitsOf (n : ℕ) :
    ∃ count, Nat.toDigits 10 n =
      NumberLayout.digitsOf n ++ List.replicate count '0' := by
  have hparts := @List.takeWhile_append_dropWhile _ (fun c => decide (c = '0'))
    (Nat.toDigits 10 n).reverse
  obtain ⟨count, hzeros⟩ : ∃ count, (Nat.toDigits 10 n).reverse.takeWhile
      (fun c => decide (c = '0')) = List.replicate count '0' := by
    refine ⟨_, List.eq_replicate_of_mem fun c hc => ?_⟩
    simpa using List.mem_takeWhile_imp hc
  refine ⟨count, ?_⟩
  rw [hzeros] at hparts
  have hreverse := congrArg List.reverse hparts
  rw [List.reverse_append, List.reverse_replicate, List.reverse_reverse] at hreverse
  exact hreverse.symm

/-! ## Reading -/

theorem magnitudeOf_whole (hwhole : AreDigits whole) (hsome : whole ≠ [])
    (hrest : rest.head?.all (fun c => !c.isDigit && c != '.') = true)
    (hexponent : exponentOf rest = some exponent) :
    magnitudeOf (whole ++ rest) =
      some (nearestDecimal (numberOf whole) exponent) := by
  have hdigit : rest.head?.all (fun c => !c.isDigit) = true := by
    cases rest with
    | nil => rfl
    | cons c rest => simp_all
  have hpoint : ∀ more, rest ≠ '.' :: more := by
    rintro more rfl
    simp at hrest
  obtain ⟨htake, hdrop⟩ := takeWhile_digits hwhole hdigit
  rw [magnitudeOf, htake, hdrop]
  split
  rename_i _ fraction after hsplit
  obtain ⟨rfl, rfl⟩ : fraction = [] ∧ after = rest := by
    split at hsplit
    · exact absurd rfl (hpoint _)
    · exact ⟨(Prod.mk.inj hsplit).1.symm, (Prod.mk.inj hsplit).2.symm⟩
  rw [if_neg fun hnone => hsome hnone.1, hexponent, List.append_nil]
  simp

theorem magnitudeOf_point (hwhole : AreDigits whole)
    (hfraction : AreDigits fraction) (hsome : whole ≠ [])
    (hrest : rest.head?.all (fun c => !c.isDigit) = true)
    (hexponent : exponentOf rest = some exponent) :
    magnitudeOf (whole ++ '.' :: (fraction ++ rest)) =
      some (nearestDecimal (numberOf (whole ++ fraction))
        (exponent - fraction.length)) := by
  obtain ⟨htake, hdrop⟩ := @takeWhile_digits whole ('.' :: (fraction ++ rest))
    hwhole rfl
  obtain ⟨htake', hdrop'⟩ := takeWhile_digits hfraction hrest
  rw [magnitudeOf, htake, hdrop]
  simp only [htake', hdrop']
  rw [if_neg fun hnone => hsome hnone.1, hexponent]
  rfl

/-- A text that stands for a rational, whatever its digits are. -/
def Spells (text : List Char) (x : ℚ) : Prop :=
  ∃ (digits : ℕ) (scale : ℤ), magnitudeOf text = some (nearestDecimal digits scale) ∧
    (digits : ℚ) * 10 ^ scale = x

theorem Spells.magnitudeOf_eq {x : ℚ} {magnitude : ℕ} (hspells : Spells text x)
    (hpositive : 0 < magnitude) (hfinite : magnitude < infiniteMagnitude)
    (hreaches : Reaches magnitude x) : magnitudeOf text = some magnitude := by
  obtain ⟨digits, scale, htext, rfl⟩ := hspells
  rw [htext, nearestDecimal_eq hpositive hfinite hreaches]

/-- What is read as a number does not start with a sign. -/
theorem splitSign_eq {magnitude : ℕ} (htext : magnitudeOf text = some magnitude) :
    splitSign text = (false, text) := by
  have hsign : ∀ sign rest, sign = '-' ∨ sign = '+' →
      magnitudeOf (sign :: rest) = none := by
    rintro sign rest (rfl | rfl) <;> rfl
  rw [splitSign.eq_def]
  split
  · rw [hsign _ _ (.inl rfl)] at htext
    cases htext
  · rw [hsign _ _ (.inr rfl)] at htext
    cases htext
  · rfl

end Literal

namespace NumberLayout

open Literal

variable {layout : NumberLayout} {digits : List Char} {point : ℤ}

/-! ## Writing -/

/-- The rational of digits with the point at a position. -/
def placed (digits : List Char) (point : ℤ) : ℚ :=
  numberOf digits * 10 ^ (point - digits.length)

/-- The point stands in front of the digits, behind a zero and more of them. -/
theorem spells_zeros_digits (hdigits : AreDigits digits) (hpoint : point ≤ 0) :
    Spells ('0' :: '.' :: zeros (-point) ++ digits) (placed digits point) := by
  have hread := @magnitudeOf_point ['0'] (zeros (-point) ++ digits) [] 0
    (by simp [AreDigits]) ((areDigits_replicate _).append hdigits) (by simp) rfl rfl
  rw [List.append_nil] at hread
  refine ⟨_, _, hread, ?_⟩
  have hnumber : numberOf (['0'] ++ (zeros (-point) ++ digits)) = numberOf digits :=
    (numberOf_zeros_append _ 1).trans (numberOf_zeros_append _ _)
  rw [hnumber, List.length_append, zeros, List.length_replicate, placed]
  congr 2
  omega

/-- The point stands between the digits. -/
theorem spells_split_digits (hdigits : AreDigits digits) (hsome : digits ≠ [])
    (hpositive : ¬point ≤ 0) (hinside : point < digits.length) :
    Spells (digits.take point.toNat ++ '.' :: digits.drop point.toNat)
      (placed digits point) := by
  have hwhole : AreDigits (digits.take point.toNat) := fun c hc =>
    hdigits c (List.mem_of_mem_take hc)
  have hfraction : AreDigits (digits.drop point.toNat) := fun c hc =>
    hdigits c (List.mem_of_mem_drop hc)
  have hfirst : digits.take point.toNat ≠ [] := by
    rw [Ne, List.take_eq_nil_iff]
    rintro (hnone | hnone)
    · omega
    · exact hsome hnone
  have hread := @magnitudeOf_point _ _ [] 0 hwhole hfraction hfirst rfl rfl
  rw [List.append_nil] at hread
  refine ⟨_, _, hread, ?_⟩
  rw [List.take_append_drop, List.length_drop, placed]
  congr 2
  omega

/-- The point stands behind the digits and some zeros, if it stands there at
all. -/
theorem spells_digits_zeros (layout : NumberLayout) (hdigits : AreDigits digits)
    (hsome : digits ≠ []) (hbehind : ¬point < digits.length) :
    Spells (digits ++ zeros (point - digits.length) ++
      if layout.keepFraction then ['.', '0'] else []) (placed digits point) := by
  obtain ⟨count, hcount⟩ : ∃ count : ℕ, point - digits.length = count :=
    Int.eq_ofNat_of_zero_le (by omega)
  have hwhole : AreDigits (digits ++ List.replicate count '0') :=
    hdigits.append (areDigits_replicate count)
  have hsome' : digits ++ List.replicate count '0' ≠ [] :=
    List.append_ne_nil_of_left_ne_nil hsome _
  rw [placed, zeros, hcount, Int.toNat_natCast, zpow_natCast]
  split
  · have hread := @magnitudeOf_point _ ['0'] [] 0 hwhole (by simp [AreDigits]) hsome'
      rfl rfl
    refine ⟨_, _, hread, ?_⟩
    have hnumber : numberOf (digits ++ List.replicate count '0' ++ ['0']) =
        numberOf digits * 10 ^ count * 10 := by
      rw [← numberOf_append_zeros digits count]
      exact numberOf_append_zeros _ 1
    have htenth : (10 : ℚ) ^ (0 - (['0'].length : ℤ)) = 10⁻¹ := rfl
    rw [hnumber, htenth]
    push_cast
    ring
  · have hread := @magnitudeOf_whole _ [] 0 hwhole hsome' rfl rfl
    refine ⟨_, _, hread, ?_⟩
    rw [numberOf_append_zeros, zpow_zero, mul_one]
    push_cast
    rfl

theorem spells_positionalText (layout : NumberLayout) (hdigits : AreDigits digits)
    (hsome : digits ≠ []) (point : ℤ) :
    Spells (layout.positionalText digits point) (placed digits point) := by
  rw [positionalText]
  split
  · exact spells_zeros_digits hdigits ‹_›
  · split
    · exact spells_split_digits hdigits hsome ‹_› ‹_›
    · exact spells_digits_zeros layout hdigits hsome ‹_›

def signedPower (layout : NumberLayout) (power : ℤ) : List Char :=
  (if power < 0 then ['-'] else if layout.signExponent then ['+'] else []) ++
    Nat.toDigits 10 power.natAbs

theorem splitSign_signedPower (layout : NumberLayout) (power : ℤ) :
    splitSign (layout.signedPower power) =
      (decide (power < 0), Nat.toDigits 10 power.natAbs) := by
  rw [signedPower]
  split
  · rename_i hnegative
    rw [decide_eq_true hnegative]
    rfl
  · rename_i hpositive
    rw [decide_eq_false hpositive]
    split
    · rfl
    · have hread := @magnitudeOf_whole _ [] 0 (areDigits_toDigits power.natAbs)
        Nat.toDigits_ne_nil rfl rfl
      rw [List.append_nil] at hread
      exact splitSign_eq hread

theorem exponentOf_signedPower (layout : NumberLayout) (power : ℤ) :
    exponentOf ('e' :: layout.signedPower power) = some power := by
  have hall : (Nat.toDigits 10 power.natAbs).all Char.isDigit = true :=
    List.all_eq_true.mpr (areDigits_toDigits power.natAbs)
  have hnumber : numberOf (Nat.toDigits 10 power.natAbs) = power.natAbs :=
    Nat.ofDigitChars_ten_toDigits
  rw [exponentOf, splitSign_signedPower]
  simp only [hall, hnumber]
  rw [if_pos ⟨.inl trivial, Nat.toDigits_ne_nil, trivial⟩]
  congr 1
  split
  · rename_i hminus
    have hnegative := of_decide_eq_true hminus
    omega
  · rename_i hplus
    have hpositive := of_decide_eq_false (Bool.eq_false_of_not_eq_true hplus)
    omega

theorem spells_exponentText (layout : NumberLayout) (hdigits : AreDigits digits)
    (hsome : digits ≠ []) (point : ℤ) :
    Spells (layout.exponentText digits point) (placed digits point) := by
  have hexponent := exponentOf_signedPower layout (point - 1)
  obtain ⟨first, more, rfl⟩ := List.exists_cons_of_ne_nil hsome
  have htext : layout.exponentText (first :: more) point =
      [first] ++ ((if more = [] then [] else '.' :: more) ++
        'e' :: layout.signedPower (point - 1)) := by
    rw [exponentText, signedPower]
    cases more <;> simp
  have hfirst : AreDigits [first] := by
    simpa [AreDigits] using hdigits first List.mem_cons_self
  rw [htext, placed]
  split
  · rename_i hnone
    refine ⟨_, _, magnitudeOf_whole hfirst (by simp) rfl hexponent, ?_⟩
    rw [hnone]
    rfl
  · have hmore : AreDigits more := fun c hc => hdigits c (List.mem_cons_of_mem _ hc)
    refine ⟨_, _, magnitudeOf_point hfirst hmore (by simp) rfl hexponent, ?_⟩
    rw [List.singleton_append, List.length_cons]
    congr 2
    push_cast
    ring

/-! ## Magnitudes -/

variable {magnitude : ℕ}

/-- The zeros that are cut off stand between the last digit and the point. -/
theorem value_eq_placed (decimal : Decimal) :
    decimal.value = placed (digitsOf decimal.digits)
      (decimal.scale + (Nat.toDigits 10 decimal.digits).length) := by
  obtain ⟨count, hzeros⟩ := exists_zeros_of_digitsOf decimal.digits
  have hnumber : numberOf (Nat.toDigits 10 decimal.digits) = decimal.digits :=
    Nat.ofDigitChars_ten_toDigits
  rw [hzeros, numberOf_append_zeros] at hnumber
  have hdigits : (decimal.digits : ℚ) =
      numberOf (digitsOf decimal.digits) * 10 ^ count := by
    exact_mod_cast hnumber.symm
  have hscale : decimal.scale + ((digitsOf decimal.digits).length + count : ℕ) -
      (digitsOf decimal.digits).length = count + decimal.scale := by
    push_cast
    ring
  calc decimal.value
      = numberOf (digitsOf decimal.digits) * 10 ^ count * 10 ^ decimal.scale :=
        congrArg (· * (10 : ℚ) ^ decimal.scale) hdigits
    _ = numberOf (digitsOf decimal.digits) * 10 ^ (count + decimal.scale) := by
        rw [zpow_add₀ (by norm_num), zpow_natCast, mul_assoc]
    _ = placed (digitsOf decimal.digits)
          (decimal.scale + (Nat.toDigits 10 decimal.digits).length) := by
        rw [placed, hzeros, List.length_append, List.length_replicate, hscale]

theorem areDigits_digitsOf (n : ℕ) : AreDigits (digitsOf n) := by
  obtain ⟨count, hzeros⟩ := exists_zeros_of_digitsOf n
  intro c hc
  apply areDigits_toDigits n
  rw [hzeros]
  exact List.mem_append_left _ hc

theorem digitsOf_ne_nil {n : ℕ} (hn : n ≠ 0) : digitsOf n ≠ [] := by
  obtain ⟨count, hzeros⟩ := exists_zeros_of_digitsOf n
  have hnumber : numberOf (Nat.toDigits 10 n) = n := Nat.ofDigitChars_ten_toDigits
  intro hnil
  rw [hzeros, hnil, numberOf_append_zeros] at hnumber
  exact hn (hnumber.symm.trans (Nat.zero_mul _))

theorem magnitudeOf_magnitudeText (layout : NumberLayout) (hpositive : 0 < magnitude)
    (hfinite : magnitude < infiniteMagnitude) :
    magnitudeOf (layout.magnitudeText magnitude) = some magnitude := by
  have hreaches := (Decimal.readsBack_iff hpositive).mp
    (Decimal.shortest_readsBack layout.tie hpositive)
  have hsome : (Decimal.shortest layout.tie magnitude).digits ≠ 0 := by
    intro hzero
    have hbounds := (hreaches.bounds hpositive hfinite).1
    rw [Decimal.value, hzero, Nat.cast_zero, zero_mul] at hbounds
    exact absurd hbounds (not_le.mpr (two_zpow_pos _))
  have hdigits := areDigits_digitsOf (Decimal.shortest layout.tie magnitude).digits
  have hnonempty := digitsOf_ne_nil hsome
  rw [value_eq_placed] at hreaches
  have hpositional :=
    (spells_positionalText layout hdigits hnonempty _).magnitudeOf_eq hpositive
      hfinite hreaches
  have hexponent :=
    (spells_exponentText layout hdigits hnonempty _).magnitudeOf_eq hpositive
      hfinite hreaches
  rw [magnitudeText]
  split
  · exact hpositional
  · split
    · exact hpositional
    · exact hexponent

end NumberLayout

/-! ## Scalars -/

namespace Scalar

open Literal

variable {x : Scalar}

theorem ofParts_parts (x : Scalar) : ofParts x.negative x.magnitude = x := by
  have hbits := bits_eq_parts x
  rw [ofParts, Nat.mod_eq_of_lt x.magnitude_lt, ← hbits, UInt64.ofNat_toNat]

/-- The one not-a-number that a text is read as. -/
def readNaN : Scalar :=
  ofParts false (infiniteMagnitude + 0x8000000000000)

theorem isNaN_readNaN : readNaN.IsNaN := by
  decide

/-- A body that is read as a magnitude, with or without a minus in front. -/
theorem ofLiteral_of_body {body : List Char} {magnitude : ℕ} (minus : Bool)
    (hbody : (magnitudeOf body).or (wordMagnitude body) = some magnitude)
    (hsign : splitSign body = (false, body)) (hsome : body ≠ []) :
    ofLiteral (String.ofList ((if minus then ['-'] else []) ++ body)) =
      .ok (ofParts minus magnitude) := by
  have htext : ¬(String.ofList ((if minus then ['-'] else []) ++ body)).isEmpty =
      true := by
    rw [String.isEmpty_iff, String.ofList_eq_empty_iff]
    exact List.append_ne_nil_of_right_ne_nil _ hsome
  have hsplit : splitSign ((if minus then ['-'] else []) ++ body) =
      (minus, body) := by
    cases minus with
    | true => rfl
    | false => exact hsign
  rw [ofLiteral, if_neg htext, String.toList_ofList, hsplit]
  simp only [hbody]

/-- What is written of a scalar is read as that scalar. -/
theorem ofLiteral_text (layout : NumberLayout) (hnumber : ¬x.IsNaN) :
    ofLiteral (layout.text x) = .ok x := by
  have hread : ∀ body, (magnitudeOf body).or (wordMagnitude body) =
      some x.magnitude → splitSign body = (false, body) → body ≠ [] →
      ofLiteral (String.ofList ((if x.negative then ['-'] else []) ++ body)) =
        .ok x := by
    intro body hbody hsign hsome
    rw [ofLiteral_of_body x.negative hbody hsign hsome, ofParts_parts]
  rw [NumberLayout.text, if_neg hnumber]
  by_cases hzero : x.magnitude = 0
  · simp only [if_pos hzero]
    apply hread
    · rw [hzero]
      cases layout.keepFraction <;> rfl
    · rfl
    · exact List.cons_ne_nil _ _
  by_cases hfinite : x.IsFinite
  · have hbody := NumberLayout.magnitudeOf_magnitudeText layout
      (Nat.pos_of_ne_zero hzero) hfinite
    simp only [if_neg hzero, if_pos hfinite]
    refine hread _ ?_ (splitSign_eq hbody) ?_
    · rw [hbody]
      rfl
    · intro hnil
      rw [hnil] at hbody
      cases hbody
  · have hlimit : x.magnitude = infiniteMagnitude :=
      Nat.le_antisymm (Nat.le_of_not_lt hnumber) (Nat.le_of_not_lt hfinite)
    simp only [if_neg hzero, if_neg hfinite]
    apply hread
    · rw [hlimit]
      decide +kernel
    · rfl
    · exact List.cons_ne_nil _ _

theorem ofLiteral_text_of_isNaN (layout : NumberLayout) (hnan : x.IsNaN) :
    ofLiteral (layout.text x) = .ok readNaN := by
  rw [NumberLayout.text, if_pos hnan]
  decide +kernel

end Scalar

end PackedTopology
