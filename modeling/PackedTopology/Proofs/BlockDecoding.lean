import PackedTopology.Proofs.CodeDescription

/-!
# Blocks are decoded

Symbols add a byte or a copy each, plain blocks add their bytes, and blocks
follow each other up to the marked one.  Decoding has a bound on its rounds that
the bits at hand set; as every symbol and every block takes a bit, the bound is
never met.  What is decoded in success is a sequence of blocks.
-/

namespace PackedTopology.Zlib

open Decoding

variable {position : ℕ} {output final : List UInt8} {codes : BlockLengths}
  {bits : List Bool}

/-! ## Copies -/

theorem decodes_tabled {table : Array (ℕ × ℕ)} {place value : ℕ}
    (hlengthens : Lengthens table place bits value) :
    Decodes (tabled table place) position output bits value output := by
  obtain ⟨least, extra, count, hplace, hextra, rfl, rfl⟩ := hlengthens
  rw [tabled]
  simp only [hplace]
  exact (decodes_number hextra).bind_pure (least + ·)

theorem tells_tabled (table : Array (ℕ × ℕ)) (place : ℕ) :
    Tells (tabled table place) position output fun read value final =>
      Lengthens table place read value ∧ final = output := by
  rw [tabled]
  split
  · rename_i least count hplace
    refine (tells_number count).bind_pure (least + ·) ?_
    rintro _ extra _ ⟨hextra, rfl, rfl⟩
    exact ⟨⟨least, extra, count, hplace, hextra, rfl, rfl⟩, rfl⟩
  · exact tells_throw .corrupt

/-- A copy goes back one byte at least. -/
theorem one_le_distance {place value : ℕ}
    (hlengthens : Lengthens copyDistances place bits value) : 1 ≤ value := by
  obtain ⟨least, extra, count, hplace, -, -, rfl⟩ := hlengthens
  have htable : ∀ entry ∈ copyDistances, 1 ≤ entry.1 := by decide
  exact (htable _ (Array.mem_of_getElem? hplace)).trans (Nat.le_add_right _ _)

/-- The first byte of a copy is at hand, and the others repeat what is there
when it is added. -/
theorem repeats_cons {distance : ℕ} {byte : UInt8} {added : List UInt8}
    (hrepeats : Repeats output distance (byte :: added)) (hnear : 1 ≤ distance)
    (hfar : distance ≤ output.length) :
    output[output.length - distance]? = some byte ∧
      Repeats (output ++ [byte]) distance added := by
  constructor
  · have hfirst := hrepeats 0 (by simp)
    rw [Nat.add_zero, List.getElem?_append_right le_rfl, Nat.sub_self,
      List.getElem?_cons_zero, List.getElem?_append_left (by omega)] at hfirst
    exact hfirst.symm
  · intro i hi
    have hnext := hrepeats (i + 1) (by simpa using hi)
    rw [List.append_assoc, List.singleton_append, List.length_append,
      List.length_singleton, Nat.add_assoc, Nat.add_comm 1 i]
    exact hnext

theorem repeats_of_byte {distance : ℕ} {byte : UInt8} {added : List UInt8}
    (hbyte : output[output.length - distance]? = some byte) (hnear : 1 ≤ distance)
    (hfar : distance ≤ output.length)
    (hrepeats : Repeats (output ++ [byte]) distance added) :
    Repeats output distance (byte :: added) := by
  intro i hi
  cases i with
  | zero =>
      rw [Nat.add_zero, List.getElem?_append_right le_rfl, Nat.sub_self,
        List.getElem?_cons_zero, List.getElem?_append_left (by omega), hbyte]
  | succ i =>
      have hnext := hrepeats i (by simpa using hi)
      rwa [List.append_assoc, List.singleton_append, List.length_append,
        List.length_singleton, Nat.add_assoc, Nat.add_comm 1 i] at hnext

theorem decodes_repeatBack {distance : ℕ} {added : List UInt8}
    (hrepeats : Repeats output distance added) (hnear : 1 ≤ distance)
    (hfar : distance ≤ output.length) :
    Decodes (repeatBack distance added.length) position output [] ()
      (output ++ added) := by
  induction added generalizing output with
  | nil =>
      rw [List.append_nil]
      exact decodes_pure ()
  | cons byte added ih =>
      obtain ⟨hbyte, hrest⟩ := repeats_cons hrepeats hnear hfar
      rw [List.length_cons, repeatBack]
      refine Decodes.get_bind (fun progress houtput _ => ?_) (by simp)
      simp only [houtput, List.size_toArray, List.getElem?_toArray, hbyte]
      refine (decodes_emit byte).bind_of_nil ?_
      rw [List.append_cons output byte added]
      exact ih hrest (hfar.trans (by simp))

theorem tells_repeatBack {distance : ℕ} (hnear : 1 ≤ distance) (count : ℕ)
    (hfar : distance ≤ output.length) :
    Tells (repeatBack distance count) position output fun read _ final =>
      ∃ added : List UInt8, added.length = count ∧ Repeats output distance added ∧
        read = [] ∧ final = output ++ added := by
  induction count generalizing output position with
  | zero =>
      refine tells_pure ⟨[], rfl, ?_, rfl, by simp⟩
      rintro i ⟨⟩
  | succ count ih =>
      rw [repeatBack]
      refine Tells.get_bind fun progress houtput => ?_
      simp only [houtput, List.size_toArray, List.getElem?_toArray]
      split
      · rename_i byte hbyte
        refine (tells_emit byte).bind ?_
        rintro _ _ _ ⟨rfl, rfl⟩
        refine (ih (hfar.trans (by simp))).imp ?_
        rintro _ _ _ ⟨added, hcount, hrepeats, rfl, rfl⟩
        refine ⟨byte :: added, ?_, repeats_of_byte hbyte hnear hfar hrepeats, rfl, ?_⟩
        · rw [List.length_cons, hcount]
        · rw [← List.append_cons]
      · exact tells_throw .corrupt

theorem decodes_copy {place far distance : ℕ} {added : List UInt8}
    {extra farWord farExtra : List Bool}
    (hlength : Lengthens copyLengths place extra added.length)
    (hword : IsWord codes.distances far farWord)
    (hdistance : Lengthens copyDistances far farExtra distance)
    (hfar : distance ≤ output.length)
    (hrepeats : Repeats output distance added) :
    Decodes (copy codes.codes (endOfBlock + 1 + place)) position output
      (extra ++ (farWord ++ farExtra)) () (output ++ added) := by
  have hplace : endOfBlock + 1 + place - endOfBlock - 1 = place := by omega
  rw [copy, hplace]
  refine (decodes_tabled hlength).bind ?_
  rw [← List.append_nil farExtra]
  refine (PrefixCode.decodes_symbol hword).bind ?_
  refine (decodes_tabled hdistance).bind ?_
  refine Decodes.get_bind (fun progress houtput _ => ?_) (by simp)
  refine (decodes_ensure (by simpa [houtput] using hfar)).bind_of_nil ?_
  exact decodes_repeatBack hrepeats (one_le_distance hdistance) hfar

theorem tells_copy {symbol : ℕ} (hsymbol : endOfBlock < symbol) :
    Tells (copy codes.codes symbol) position output fun read _ final =>
      ∃ (place far distance : ℕ) (added : List UInt8)
          (extra farWord farExtra : List Bool),
        symbol = endOfBlock + 1 + place ∧ Lengthens copyLengths place extra added.length ∧
          IsWord codes.distances far farWord ∧
          Lengthens copyDistances far farExtra distance ∧ distance ≤ output.length ∧
          Repeats output distance added ∧ read = extra ++ (farWord ++ farExtra) ∧
          final = output ++ added := by
  rw [copy]
  refine (tells_tabled _ _).bind ?_
  rintro extra _ _ ⟨hlength, rfl⟩
  refine PrefixCode.tells_symbol.bind ?_
  rintro farWord far _ ⟨hword, rfl⟩
  refine (tells_tabled _ _).bind ?_
  rintro farExtra distance output ⟨hdistance, rfl⟩
  refine Tells.get_bind fun progress houtput => ?_
  refine (tells_ensure _).bind ?_
  rintro _ _ output ⟨rfl, rfl, hholds⟩
  have hfar : distance ≤ output.length := by simpa [houtput] using hholds
  refine (tells_repeatBack (one_le_distance hdistance) _ hfar).imp ?_
  rintro _ _ _ ⟨added, rfl, hrepeats, rfl, rfl⟩
  refine ⟨symbol - endOfBlock - 1, far, distance, added, extra, farWord, farExtra,
    by omega, hlength, hword, hdistance, hfar, hrepeats, ?_, rfl⟩
  simp only [List.append_nil]

/-! ## Symbols -/

theorem Symbols.length_le (hsymbols : Symbols codes output bits final) :
    output.length ≤ final.length := by
  induction hsymbols with
  | done _ => exact le_rfl
  | byte _ _ ih =>
      rw [List.length_append] at ih
      exact (Nat.le_add_right _ _).trans ih
  | copy _ _ _ _ _ _ _ ih =>
      rw [List.length_append] at ih
      exact (Nat.le_add_right _ _).trans ih

theorem decodes_symbols (hsymbols : Symbols codes output bits final) (rounds : ℕ)
    (hrounds : bits.length < rounds) :
    Decodes (symbols codes.codes rounds) position output bits () final := by
  -- Every word has a bit, so there are rounds for all of them.
  induction hsymbols generalizing position rounds with
  | @done output word hword =>
      obtain ⟨fewer, rfl⟩ : ∃ fewer, rounds = fewer + 1 :=
        Nat.exists_eq_succ_of_ne_zero (by omega)
      rw [symbols, ← List.append_nil word]
      refine (PrefixCode.decodes_symbol hword).bind ?_
      exact decodes_pure ()
  | @byte output final byte word bits hword _ ih =>
      obtain ⟨fewer, rfl⟩ : ∃ fewer, rounds = fewer + 1 :=
        Nat.exists_eq_succ_of_ne_zero (by omega)
      have hsome := List.length_pos_iff.mpr hword.ne_nil
      rw [List.length_append] at hrounds
      rw [symbols]
      refine (PrefixCode.decodes_symbol hword).bind ?_
      rw [if_pos (show byte.toNat < endOfBlock from byte.toNat_lt), UInt8.ofNat_toNat]
      refine (decodes_emit byte).bind_of_nil ?_
      exact ih fewer (by omega)
  | @copy output final added place far distance word extra farWord farExtra bits
      hword hlength hfarWord hdistance hfar hrepeats _ ih =>
      obtain ⟨fewer, rfl⟩ : ∃ fewer, rounds = fewer + 1 :=
        Nat.exists_eq_succ_of_ne_zero (by omega)
      have hsome := List.length_pos_iff.mpr hword.ne_nil
      simp only [List.length_append] at hrounds
      have hbyte : ¬endOfBlock + 1 + place < endOfBlock := by omega
      have hend : ¬endOfBlock + 1 + place = endOfBlock := by omega
      rw [symbols, List.append_assoc, List.append_assoc]
      refine (PrefixCode.decodes_symbol hword).bind ?_
      rw [if_neg hbyte, if_neg hend, ← List.append_assoc]
      refine (decodes_copy hlength hfarWord hdistance hfar hrepeats).bind ?_
      exact ih fewer (by omega)

theorem tells_symbols (rounds : ℕ) :
    Tells (symbols codes.codes rounds) position output fun read _ final =>
      Symbols codes output read final := by
  -- Rounds bound the recursion only: where they run out there is no success.
  induction rounds generalizing position output with
  | zero => exact tells_throw .exhausted
  | succ rounds ih =>
      rw [symbols]
      refine PrefixCode.tells_symbol.bind ?_
      rintro word symbol output ⟨hword, rfl⟩
      split_ifs with hbyte hend
      · refine (tells_emit _).bind ?_
        rintro _ _ _ ⟨rfl, rfl⟩
        refine ih.imp fun bits _ final hrest => ?_
        have hsymbol : (UInt8.ofNat symbol).toNat = symbol := by
          rw [UInt8.toNat_ofNat']
          exact Nat.mod_eq_of_lt hbyte
        rw [← hsymbol] at hword
        exact .byte hword hrest
      · subst hend
        refine tells_pure ?_
        rw [List.append_nil]
        exact .done hword
      · refine (tells_copy (by omega)).bind ?_
        rintro _ _ _ ⟨place, far, distance, added, extra, farWord, farExtra, rfl,
          hlength, hfarWord, hdistance, hfar, hrepeats, rfl, rfl⟩
        refine ih.imp fun bits _ final hrest => ?_
        have hcopy := Symbols.copy hword hlength hfarWord hdistance hfar hrepeats hrest
        simpa only [List.append_assoc] using hcopy

/-! ## Blocks -/

theorem decodes_plainBytes (bytes : List UInt8) :
    Decodes (plainBytes bytes.length) position output
      (bytes.flatMap Bits.ofByte) () (output ++ bytes) := by
  induction bytes generalizing position output with
  | nil =>
      rw [List.append_nil]
      exact decodes_pure ()
  | cons byte bytes ih =>
      rw [List.length_cons, plainBytes, List.flatMap_cons]
      refine Decodes.of_room ?_ (by simp)
      refine (decodes_number byte.toNat_lt).bind ?_
      rw [UInt8.ofNat_toNat]
      refine (decodes_emit byte).bind_of_nil ?_
      rw [List.append_cons output byte bytes]
      exact ih

theorem tells_plainBytes (count : ℕ) :
    Tells (plainBytes count) position output fun read _ final =>
      ∃ bytes : List UInt8, bytes.length = count ∧ read = bytes.flatMap Bits.ofByte ∧
        final = output ++ bytes := by
  induction count generalizing position output with
  | zero => exact tells_pure ⟨[], rfl, rfl, by simp⟩
  | succ count ih =>
      rw [plainBytes]
      refine Tells.of_room ?_
      refine tells_byte.bind ?_
      rintro _ _ _ ⟨byte, rfl, rfl, rfl⟩
      rw [UInt8.ofNat_toNat]
      refine (tells_emit _).bind ?_
      rintro _ _ _ ⟨rfl, rfl⟩
      refine ih.imp ?_
      rintro _ _ _ ⟨bytes, hcount, rfl, rfl⟩
      refine ⟨byte :: bytes, ?_, ?_, ?_⟩
      · rw [List.length_cons, hcount]
      · rw [List.flatMap_cons, List.nil_append]
      · rw [← List.append_cons]

theorem decodes_block (hblock : Block position output bits final) :
    Decodes block position output bits () final := by
  cases hblock with
  | @plain padding bytes hpadding hborder hcount =>
      have hlimit : blockLimit < 2 ^ 16 := by decide
      simp only [List.append_assoc]
      rw [block]
      refine (decodes_number (by decide)).bind ?_
      show Decodes plainBlock _ _ _ _ _
      rw [plainBlock]
      refine (decodes_align hpadding hborder).bind ?_
      refine (decodes_number (by omega)).bind ?_
      refine (decodes_number (by omega)).bind ?_
      refine (decodes_ensure (decide_eq_true (Nat.add_sub_of_le hcount))).bind_of_nil ?_
      exact decodes_plainBytes bytes
  | fixed hsymbols =>
      rw [block]
      refine (decodes_number (by decide)).bind ?_
      refine Decodes.get_bind (fun progress _ hsize => ?_) hsymbols.length_le
      rw [← BlockLengths.codes_fixed]
      exact decodes_symbols hsymbols _ (Nat.lt_succ_of_le hsize)
  | described hdescribed hsymbols =>
      rw [block, List.append_assoc]
      refine (decodes_number (by decide)).bind ?_
      refine (BlockLengths.decodes_described hdescribed).bind ?_
      refine Decodes.get_bind (fun progress _ hsize => ?_) hsymbols.length_le
      exact decodes_symbols hsymbols _ (Nat.lt_succ_of_le hsize)

theorem tells_block :
    Tells block position output fun read _ final => Block position output read final := by
  rw [block]
  refine (tells_number 2).bind ?_
  rintro _ kind output ⟨hkind, rfl, rfl⟩
  split
  · rw [plainBlock]
    refine tells_align.bind ?_
    rintro padding _ output ⟨hpadding, hborder, rfl⟩
    refine (tells_number 16).bind ?_
    rintro _ count output ⟨hcount, rfl, rfl⟩
    refine (tells_number 16).bind ?_
    rintro _ complement output ⟨hcomplement, rfl, rfl⟩
    refine (tells_ensure _).bind ?_
    rintro _ _ output ⟨rfl, rfl, hsum⟩
    refine (tells_plainBytes _).imp ?_
    rintro _ _ _ ⟨bytes, rfl, rfl, rfl⟩
    have hlimit : blockLimit = 0xffff := rfl
    rw [decide_eq_true_eq] at hsum
    obtain rfl : complement = blockLimit - bytes.length := by omega
    have hplain := @Block.plain position output padding bytes hpadding hborder (by omega)
    simpa only [List.append_assoc, List.nil_append] using hplain
  · refine Tells.get_bind fun progress _ => ?_
    rw [← BlockLengths.codes_fixed]
    exact (tells_symbols _).imp fun _ _ _ hsymbols => .fixed hsymbols
  · refine BlockLengths.tells_described.bind ?_
    rintro description _ output ⟨codes, hdescribed, rfl, rfl⟩
    refine Tells.get_bind fun progress _ => ?_
    refine (tells_symbols _).imp fun _ _ _ hsymbols => ?_
    rw [← List.append_assoc]
    exact .described hdescribed hsymbols
  · exact tells_throw .corrupt

theorem decodes_blocks (hblocks : Blocks position output bits final) (rounds : ℕ)
    (hrounds : bits.length < rounds) :
    Decodes (blocks rounds) position output bits () final := by
  induction hblocks generalizing rounds with
  | @last position output final bits hblock =>
      obtain ⟨fewer, rfl⟩ : ∃ fewer, rounds = fewer + 1 :=
        Nat.exists_eq_succ_of_ne_zero (by omega)
      rw [blocks, ← List.append_nil (true :: bits)]
      refine Decodes.bit_bind ?_
      refine (decodes_block hblock).bind ?_
      exact decodes_pure ()
  | @more position output middle final bits rest hblock _ ih =>
      obtain ⟨fewer, rfl⟩ : ∃ fewer, rounds = fewer + 1 :=
        Nat.exists_eq_succ_of_ne_zero (by omega)
      rw [List.length_append, List.length_cons] at hrounds
      rw [blocks]
      refine Decodes.bit_bind ?_
      refine (decodes_block hblock).bind ?_
      exact ih fewer (by omega)

theorem tells_blocks (rounds : ℕ) :
    Tells (blocks rounds) position output fun read _ final =>
      Blocks position output read final := by
  induction rounds generalizing position output with
  | zero => exact tells_throw .exhausted
  | succ rounds ih =>
      rw [blocks]
      refine tells_bit.bind ?_
      rintro _ last output ⟨rfl, rfl⟩
      refine tells_block.bind fun bits _ middle hblock => ?_
      cases last with
      | true =>
          refine tells_pure ?_
          rw [List.append_nil]
          exact .last hblock
      | false =>
          refine ih.imp fun rest _ final hrest => ?_
          show Blocks position output (false :: bits ++ rest) final
          exact .more hblock hrest

end PackedTopology.Zlib
