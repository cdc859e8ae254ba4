import Mathlib.Algebra.BigOperators.Group.List.Basic
import Mathlib.Data.List.Induction
import Mathlib.Tactic.Ring
import PackedTopology.Proofs.BitDecoding

/-!
# Words read by rows

A code is read with one row of symbols for every length.  The words of a row
start where the shorter words end, so as long as a word goes on, its first bits
are a number behind the words of their length, and where it ends, its number
tells the place of its symbol in the row.  So the words are read and nothing else
is.  That a code is complete is told by its rows as by its lengths.
-/

namespace PackedTopology.Zlib

namespace PrefixCode

variable {lengths : List ℕ}

theorem toList_symbolsOf (lengths : List ℕ) (length : ℕ) :
    (symbolsOf lengths.toArray length).toList =
      (List.range lengths.length).filter
        fun symbol => lengths[symbol]? = some length := by
  simp [symbolsOf]

theorem toList_symbolsOf_append (front back : List ℕ) (length : ℕ) :
    (symbolsOf (front ++ back).toArray length).toList =
      (symbolsOf front.toArray length).toList ++
        (symbolsOf back.toArray length).toList.map (front.length + ·) := by
  have hfront : ∀ symbol ∈ List.range front.length,
      decide ((front ++ back)[symbol]? = some length) =
        decide (front[symbol]? = some length) := by
    intro symbol hsymbol
    rw [List.getElem?_append_left (List.mem_range.mp hsymbol)]
  rw [toList_symbolsOf, toList_symbolsOf, toList_symbolsOf, List.length_append,
    List.range_add, List.filter_append, List.filter_congr hfront,
    List.filter_map]
  congr 2
  apply List.filter_congr
  intro symbol _
  rw [Function.comp_apply, List.getElem?_append_right (Nat.le_add_right _ _),
    Nat.add_sub_cancel_left]

theorem size_symbolsOf (lengths : List ℕ) (length : ℕ) :
    (symbolsOf lengths.toArray length).size = lengths.count length := by
  induction lengths using List.reverseRecOn with
  | nil => rfl
  | append_singleton lengths last ih =>
      have hone : (symbolsOf [last].toArray length).size = [last].count length := by
        rw [← Array.length_toList, toList_symbolsOf]
        by_cases hlast : last = length <;> simp [List.range_succ, hlast]
      rw [← Array.length_toList, toList_symbolsOf_append, List.length_append,
        List.length_map, Array.length_toList, Array.length_toList, ih, hone,
        List.count_append]

/-- In its row a symbol stands behind the smaller ones. -/
theorem symbolsOf_getElem? {symbol length : ℕ}
    (hsymbol : lengths[symbol]? = some length) :
    (symbolsOf lengths.toArray length)[(lengths.take symbol).count length]? =
      some symbol := by
  obtain ⟨hlt, hget⟩ := List.getElem?_eq_some_iff.mp hsymbol
  have hsplit : lengths = lengths.take symbol ++ length :: lengths.drop (symbol + 1) := by
    rw [← hget, List.getElem_cons_drop, List.take_append_drop]
  have hfront : (lengths.take symbol).length = symbol := by
    rw [List.length_take]
    omega
  have hrow := toList_symbolsOf_append (lengths.take symbol)
    (length :: lengths.drop (symbol + 1)) length
  rw [← hsplit, hfront] at hrow
  rw [← Array.getElem?_toList, hrow, ← size_symbolsOf, ← Array.length_toList,
    List.getElem?_append_right (le_refl _), Nat.sub_self, toList_symbolsOf]
  simp [List.range_succ_eq_map]

/-- A row has no symbol but those of its length, each in its own place. -/
theorem of_symbolsOf_getElem? {symbol length place : ℕ}
    (hplace : (symbolsOf lengths.toArray length)[place]? = some symbol) :
    lengths[symbol]? = some length ∧ place = (lengths.take symbol).count length := by
  have hmem : symbol ∈ (symbolsOf lengths.toArray length).toList :=
    Array.mem_def.mp (Array.mem_of_getElem? hplace)
  have hnodup : (symbolsOf lengths.toArray length).toList.Nodup := by
    rw [toList_symbolsOf]
    exact List.nodup_range.filter _
  have hsymbol : lengths[symbol]? = some length := by
    rw [toList_symbolsOf, List.mem_filter] at hmem
    simpa using hmem.2
  have hown := symbolsOf_getElem? hsymbol
  rw [← Array.getElem?_toList] at hplace hown
  obtain ⟨hlt, -⟩ := List.getElem?_eq_some_iff.mp hplace
  exact ⟨hsymbol, (List.getElem?_inj hlt hnodup).mp (hplace.trans hown.symm)⟩

/-- The rows for words of more than `shorter` bits. -/
def rowsFrom (lengths : List ℕ) (shorter : ℕ) : List (Array ℕ) :=
  (List.range (longest lengths.toArray - shorter)).map fun more =>
    symbolsOf lengths.toArray (shorter + more + 1)

theorem rows_ofLengths (lengths : List ℕ) :
    (ofLengths lengths.toArray).rows = rowsFrom lengths 0 := by
  simp [ofLengths, rowsFrom]

theorem rowsFrom_of_lt {shorter : ℕ} (hlt : shorter < longest lengths.toArray) :
    rowsFrom lengths shorter =
      symbolsOf lengths.toArray (shorter + 1) :: rowsFrom lengths (shorter + 1) := by
  obtain ⟨more, hmore⟩ := Nat.exists_eq_add_of_lt hlt
  have hrest : longest lengths.toArray - (shorter + 1) = more := by omega
  rw [rowsFrom, rowsFrom, hrest, hmore, Nat.add_assoc, Nat.add_sub_cancel_left,
    List.range_succ_eq_map, List.map_cons, List.map_map]
  congr 1
  apply List.map_congr_left
  intro place _
  rw [Function.comp_apply, Nat.succ_eq_one_add, Nat.add_assoc shorter 1]

theorem rowsFrom_of_le {shorter : ℕ} (hle : longest lengths.toArray ≤ shorter) :
    rowsFrom lengths shorter = [] := by
  rw [rowsFrom, Nat.sub_eq_zero_of_le hle]
  rfl

private theorem le_foldl_max (lengths : List ℕ) (least : ℕ) :
    least ≤ lengths.foldl max least ∧
      ∀ length ∈ lengths, length ≤ lengths.foldl max least := by
  induction lengths generalizing least with
  | nil => simp
  | cons first lengths ih =>
      obtain ⟨hleast, hrest⟩ := ih (max least first)
      rw [List.foldl_cons]
      refine ⟨(le_max_left _ _).trans hleast, ?_⟩
      intro length hlength
      rcases List.mem_cons.mp hlength with rfl | hmem
      · exact (le_max_right _ _).trans hleast
      · exact hrest length hmem

private theorem foldl_max_le {lengths : List ℕ} {least most : ℕ}
    (hleast : least ≤ most) (hlengths : ∀ length ∈ lengths, length ≤ most) :
    lengths.foldl max least ≤ most := by
  induction lengths generalizing least with
  | nil => exact hleast
  | cons first lengths ih =>
      exact ih (max_le hleast (hlengths first (by simp)))
        fun length hlength => hlengths length (by simp [hlength])

theorem longest_le {most : ℕ} (hmost : 1 ≤ most)
    (hlengths : ∀ length ∈ lengths, length ≤ most) :
    longest lengths.toArray ≤ most := by
  rw [longest, List.foldl_toArray]
  exact foldl_max_le hmost hlengths

theorem one_le_longest (lengths : List ℕ) : 1 ≤ longest lengths.toArray := by
  rw [longest, List.foldl_toArray]
  exact (le_foldl_max lengths 1).1

theorem le_longest {length : ℕ} (hlength : length ∈ lengths) :
    length ≤ longest lengths.toArray := by
  rw [longest, List.foldl_toArray]
  exact (le_foldl_max lengths 1).2 length hlength

/-! ## A word is read -/

theorem wordNumber_concat (word : List Bool) (bit : Bool) :
    wordNumber (word ++ [bit]) = 2 * wordNumber word + bit.toNat := by
  simp [wordNumber]

theorem wordNumber_append (front back : List Bool) :
    wordNumber (front ++ back) =
      wordNumber front * 2 ^ back.length + wordNumber back := by
  induction back using List.reverseRecOn with
  | nil => simp [wordNumber]
  | append_singleton back last ih =>
      rw [← List.append_assoc, wordNumber_concat, ih, wordNumber_concat,
        List.length_append, List.length_singleton, pow_succ]
      ring

theorem wordNumber_lt (word : List Bool) : wordNumber word < 2 ^ word.length := by
  induction word using List.reverseRecOn with
  | nil => simp [wordNumber]
  | append_singleton word last ih =>
      have hlast : last.toNat ≤ 1 := Bool.toNat_le last
      rw [wordNumber_concat, List.length_append, List.length_singleton, pow_succ]
      omega

/-- Words of a length leave room for all shorter words in front of them. -/
theorem nextWord_mul_le (lengths : List ℕ) (length more : ℕ) :
    nextWord lengths length * 2 ^ more ≤ nextWord lengths (length + more) := by
  induction more with
  | zero => simp
  | succ more ih =>
      rw [← Nat.add_assoc, nextWord, pow_succ, ← Nat.mul_assoc]
      omega

/-- As long as a word goes on, its bits are behind the words of their length. -/
theorem nextWord_le_wordNumber {symbol : ℕ} {front back : List Bool}
    (hword : IsWord lengths symbol (front ++ back)) (hback : back ≠ []) :
    nextWord lengths front.length ≤ wordNumber front := by
  obtain ⟨last, hlast⟩ : ∃ last, back.length = last + 1 :=
    Nat.exists_eq_succ_of_ne_zero (by simpa using hback)
  have hlow := nextWord_mul_le lengths front.length last
  have hnumber := hword.number_eq
  have hlt := wordNumber_lt back
  rw [wordNumber_append, List.length_append, hlast, pow_succ,
    ← Nat.add_assoc, Nat.add_sub_cancel] at hnumber
  rw [hlast, pow_succ] at hlt
  by_contra hless
  have hgap : (wordNumber front + 1) * 2 ^ last ≤
      nextWord lengths front.length * 2 ^ last :=
    Nat.mul_le_mul_right _ (Nat.lt_of_not_le hless)
  rw [Nat.succ_mul] at hgap
  rw [← Nat.mul_assoc] at hnumber
  omega

open Decoding

variable {position : ℕ} {output : List UInt8}

theorem decodes_symbolFrom {symbol : ℕ} (back front : List Bool)
    (hword : IsWord lengths symbol (front ++ back)) (hback : back ≠ []) :
    Decodes (symbolFrom (rowsFrom lengths front.length) (wordNumber front)
      (nextWord lengths front.length)) position output back symbol output := by
  -- On the bits to come; the row after those read starts at twice `nextWord`.
  induction back generalizing front position with
  | nil => exact absurd rfl hback
  | cons bit back ih =>
      have hlonger : front.length < longest lengths.toArray := by
        have hmem := le_longest (List.mem_of_getElem? hword.length_eq)
        rw [List.length_append, List.length_cons] at hmem
        omega
      have hnumber := wordNumber_concat front bit
      rw [rowsFrom_of_lt hlonger, symbolFrom]
      refine Decodes.bit_bind ?_
      rw [← hnumber]
      by_cases hend : back = []
      · -- The word ends here: its number is that of its symbol in the row.
        subst hend
        have hplace : (symbolsOf lengths.toArray (front.length + 1))[
            wordNumber (front ++ [bit]) - 2 * nextWord lengths front.length]? =
              some symbol := by
          have hlength := hword.length_eq
          have hrank := hword.number_eq
          rw [List.length_append, List.length_singleton] at hlength hrank
          rw [hrank, Nat.add_sub_cancel, Nat.add_sub_cancel_left]
          exact symbolsOf_getElem? hlength
        simp only [hplace]
        exact decodes_pure symbol
      · have hassoc : front ++ bit :: back = (front ++ [bit]) ++ back := by simp
        rw [hassoc] at hword
        have hbehind := nextWord_le_wordNumber hword hend
        rw [List.length_append, List.length_singleton, nextWord] at hbehind
        have hnone : (symbolsOf lengths.toArray (front.length + 1))[
            wordNumber (front ++ [bit]) - 2 * nextWord lengths front.length]? =
              none := by
          rw [Array.getElem?_eq_none_iff, size_symbolsOf]
          omega
        have hgo := @ih (position + 1) (front ++ [bit]) hword hend
        rw [List.length_append, List.length_singleton, nextWord] at hgo
        simp only [hnone, size_symbolsOf]
        exact hgo

/-- A code reads each of its words as the symbol that the word stands for. -/
theorem decodes_symbol {symbol : ℕ} {word : List Bool}
    (hword : IsWord lengths symbol word) :
    Decodes (ofLengths lengths.toArray).symbol position output word symbol
      output := by
  rw [PrefixCode.symbol, rows_ofLengths]
  exact decodes_symbolFrom word [] hword hword.ne_nil

theorem tells_symbolFrom (count : ℕ) : ∀ front : List Bool,
    front.length + count = longest lengths.toArray →
      nextWord lengths front.length ≤ wordNumber front →
        Tells (symbolFrom (rowsFrom lengths front.length) (wordNumber front)
            (nextWord lengths front.length)) position output
          fun read symbol final =>
            IsWord lengths symbol (front ++ read) ∧ final = output := by
  -- On the rows left: so far the bits are behind all words of their length.
  induction count generalizing position with
  | zero =>
      intro front hfront _
      rw [rowsFrom_of_le (by omega), symbolFrom]
      exact tells_throw .corrupt
  | succ count ih =>
      intro front hfront hbehind
      rw [rowsFrom_of_lt (by omega), symbolFrom]
      refine tells_bit.bind ?_
      rintro _ bit _ ⟨rfl, rfl⟩
      rw [← wordNumber_concat]
      dsimp only
      split
      · rename_i symbol hplace
        obtain ⟨hsymbol, hrank⟩ := of_symbolsOf_getElem? hplace
        refine tells_pure ⟨⟨by simp, ?_, ?_⟩, rfl⟩
        · simpa using hsymbol
        · rw [wordNumber_concat] at hrank
          simp only [List.append_nil, List.length_append, List.length_singleton,
            Nat.add_sub_cancel, wordNumber_concat]
          omega
      · rename_i hplace
        rw [Array.getElem?_eq_none_iff, size_symbolsOf] at hplace
        have hgo := @ih (position + 1) (front ++ [bit])
        rw [List.length_append, List.length_singleton, nextWord] at hgo
        rw [size_symbolsOf]
        have hnext := hgo (by omega) (by rw [wordNumber_concat] at hplace ⊢; omega)
        simpa using hnext

/-- What a code reads is a word of the symbol that it gives. -/
theorem tells_symbol :
    Tells (ofLengths lengths.toArray).symbol position output
      fun read symbol final => IsWord lengths symbol read ∧ final = output := by
  rw [PrefixCode.symbol, rows_ofLengths]
  exact tells_symbolFrom _ [] (Nat.zero_add _) (Nat.le_refl 0)

/-! ## Space for words -/

/-- Words of one length apart, from those that are longer than some bits. -/
theorem sum_longer (lengths : List ℕ) (space : ℕ → ℕ) (shorter : ℕ) :
    ((lengths.filter (shorter < ·)).map space).sum =
      lengths.count (shorter + 1) * space (shorter + 1) +
        ((lengths.filter (shorter + 1 < ·)).map space).sum := by
  induction lengths with
  | nil => simp
  | cons length lengths ih =>
      rcases Nat.lt_trichotomy length (shorter + 1) with hlt | rfl | hgt
      · have hless : ¬shorter < length := by omega
        have hless' : ¬shorter + 1 < length := by omega
        have hne : length ≠ shorter + 1 := by omega
        simp only [List.filter_cons, hless, hless', decide_false,
          Bool.false_eq_true, if_false, List.count_cons_of_ne hne]
        exact ih
      · simp only [List.filter_cons, Nat.lt_succ_self, Nat.lt_irrefl, decide_true,
          decide_false, Bool.false_eq_true, if_true, if_false, List.map_cons,
          List.sum_cons, List.count_cons_self, Nat.succ_mul, ih]
        omega
      · have hmore : shorter < length := by omega
        have hne : length ≠ shorter + 1 := by omega
        simp only [List.filter_cons, hmore, hgt, decide_true, if_true,
          List.map_cons, List.sum_cons, List.count_cons_of_ne hne, ih]
        omega

/-- The rows use up what the words take up that are longer. -/
theorem spaceOf_rowsFrom {most : ℕ} (hmost : longest lengths.toArray ≤ most)
    (count : ℕ) : ∀ shorter, shorter + count = longest lengths.toArray →
      spaceOf (rowsFrom lengths shorter) (count - 1) *
          2 ^ (most - longest lengths.toArray) =
        ((lengths.filter (shorter < ·)).map fun length =>
          2 ^ (most - length)).sum := by
  induction count with
  | zero =>
      intro shorter hshorter
      have hnone : lengths.filter (shorter < ·) = [] := by
        rw [List.filter_eq_nil_iff]
        intro length hlength
        have hle := le_longest hlength
        simp only [decide_eq_true_eq]
        omega
      rw [rowsFrom_of_le (by omega), hnone, spaceOf, Nat.zero_mul]
      rfl
  | succ count ih =>
      intro shorter hshorter
      have hrest := ih (shorter + 1) (by omega)
      have hpow : 2 ^ count * 2 ^ (most - longest lengths.toArray) =
          2 ^ (most - (shorter + 1)) := by
        rw [← pow_add]
        congr 1
        omega
      rw [rowsFrom_of_lt (by omega), spaceOf, sum_longer, ← hrest,
        Nat.add_sub_cancel, Nat.add_mul, size_symbolsOf, Nat.shiftLeft_eq,
        Nat.mul_assoc, hpow]

theorem isComplete_ofLengths_iff :
    (ofLengths lengths.toArray).isComplete = true ↔ AreComplete lengths := by
  have hlength : (rowsFrom lengths 0).length = longest lengths.toArray := by
    simp [rowsFrom]
  rw [isComplete, rows_ofLengths, hlength, Nat.one_shiftLeft, decide_eq_true_eq]
  constructor
  · intro hspace
    have hrows := spaceOf_rowsFrom le_rfl (longest lengths.toArray) 0 (Nat.zero_add _)
    rw [hspace, Nat.sub_self, Nat.pow_zero, Nat.mul_one] at hrows
    exact ⟨longest lengths.toArray, fun _ => le_longest, hrows.symm⟩
  · rintro ⟨most, hmost, hspace⟩
    have hone : 1 ≤ most := by
      by_contra hzero
      obtain rfl : most = 0 := by omega
      have hnone : lengths.filter (0 < ·) = [] := by
        rw [List.filter_eq_nil_iff]
        intro length hlength
        simpa using hmost length hlength
      rw [wordSpace, hnone] at hspace
      exact absurd hspace (by decide)
    have hlongest := longest_le hone hmost
    have hrows := spaceOf_rowsFrom hlongest (longest lengths.toArray) 0
      (Nat.zero_add _)
    have hsplit : 2 ^ most = 2 ^ longest lengths.toArray *
        2 ^ (most - longest lengths.toArray) := by
      rw [← pow_add, Nat.add_sub_cancel' hlongest]
    rw [← wordSpace, hspace, hsplit] at hrows
    exact Nat.eq_of_mul_eq_mul_right (Nat.two_pow_pos _) hrows

theorem isUsable_ofLengths_iff :
    (ofLengths lengths.toArray).isUsable = true ↔ AreUsable lengths := by
  have hshort : (ofLengths lengths.toArray).rows.length ≤ 1 ↔
      ∀ length ∈ lengths, length ≤ 1 := by
    have hrows : (ofLengths lengths.toArray).rows.length = longest lengths.toArray := by
      simp [ofLengths]
    rw [hrows]
    exact ⟨fun hone _ hlength => (le_longest hlength).trans hone, longest_le le_rfl⟩
  rw [isUsable, Bool.or_eq_true, isComplete_ofLengths_iff, AreUsable, Bool.and_eq_true,
    decide_eq_true_eq, decide_eq_true_eq, hshort]
  refine or_congr_right (and_congr_right fun hlengths => ?_)
  -- A code with words of one bit at most has one row.
  have hlongest : longest lengths.toArray = 1 :=
    Nat.le_antisymm (longest_le le_rfl hlengths) (one_le_longest lengths)
  have hrows : (ofLengths lengths.toArray).rows = [symbolsOf lengths.toArray 1] := by
    rw [rows_ofLengths, rowsFrom_of_lt (by omega), rowsFrom_of_le (by omega)]
  simp [used, hrows, size_symbolsOf]

end PrefixCode

end PackedTopology.Zlib
