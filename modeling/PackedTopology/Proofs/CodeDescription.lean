import PackedTopology.Proofs.CodeWords

/-!
# Codes that a block describes

The lengths of the words of a block are stored in a code of their own, the
lengths of which stand in front, in an order that puts rare ones last.  Decoding
puts these in their places and then adds lengths stretch by stretch, until there
are as many as the description said.  It gives codes for all such descriptions
and for no other bits.
-/

namespace PackedTopology.Zlib

open Decoding PrefixCode

variable {position : ℕ} {output : List UInt8}

/-- The codes that words of the given lengths make up. -/
def BlockLengths.codes (lengths : BlockLengths) : BlockCodes :=
  ⟨.ofLengths lengths.symbols.toArray, .ofLengths lengths.distances.toArray⟩

theorem BlockLengths.codes_fixed : fixed.codes = BlockCodes.fixed := by
  rw [codes, fixed, BlockCodes.fixed]
  simp only [← List.append_toArray, List.toArray_replicate]

namespace BlockLengths

/-! ## Lengths in storage order -/

/-- Values are put in the places that distinct keys name, and other places keep
what they have. -/
theorem getElem?_foldl_zip {keys values : List ℕ} (hkeys : keys.Nodup)
    (hvalues : values.length ≤ keys.length) (places : Array ℕ) (place : ℕ) :
    (((keys.take values.length).zip values).foldl
      (fun places (key, value) => places.setIfInBounds key value) places)[place]? =
        places[place]?.map fun value => values.getD (keys.idxOf place) value := by
  induction keys generalizing values places with
  | nil =>
      obtain rfl : values = [] := List.eq_nil_of_length_eq_zero (by simpa using hvalues)
      simp
  | cons key keys ih =>
      cases values with
      | nil => simp
      | cons value values =>
          obtain ⟨hnew, hrest⟩ := List.nodup_cons.mp hkeys
          have hlate : values.length ≤ keys.length := by simpa using hvalues
          rw [List.length_cons, List.take_succ_cons, List.zip_cons_cons,
            List.foldl_cons, ih hrest hlate]
          by_cases hkey : key = place
          · subst hkey
            rw [List.idxOf_eq_length hnew, Array.getElem?_setIfInBounds_self]
            by_cases hplace : key < places.size <;> simp [hplace, hlate]
          · rw [List.idxOf_cons_ne _ hkey, Array.getElem?_setIfInBounds_ne hkey]
            rfl

theorem foldl_stored {stored : List ℕ} (hstored : stored.length ≤ 19) :
    ((BlockCodes.lengthOrder.take stored.length).zip stored).foldl
        (fun lengths (symbol, length) => lengths.setIfInBounds symbol length)
        (Array.replicate BlockCodes.lengthOrder.length 0) =
      (ofStored stored).toArray := by
  apply Array.ext_getElem?
  intro symbol
  rw [getElem?_foldl_zip (by decide) hstored, Array.getElem?_replicate,
    List.getElem?_toArray, ofStored, List.getElem?_map]
  by_cases hsymbol : symbol < BlockCodes.lengthOrder.length
  · rw [if_pos hsymbol, List.getElem?_range hsymbol]
    rfl
  · rw [if_neg hsymbol, List.getElem?_eq_none (by simpa using hsymbol)]
    rfl

theorem length_take_lengthOrder {count : ℕ} (hcount : count ≤ 19) :
    (BlockCodes.lengthOrder.take count).length = count := by
  rw [List.length_take]
  exact Nat.min_eq_left hcount

theorem decodes_stored {stored : List ℕ} (hstored : ∀ length ∈ stored, length < 8) :
    ∀ symbols : List ℕ, symbols.length = stored.length →
      Decodes (symbols.mapM fun symbol => return (symbol, ← number 3)) position
        output (stored.flatMap (lowBits 3)) (symbols.zip stored) output := by
  induction stored generalizing position with
  | nil =>
      intro symbols hsymbols
      obtain rfl : symbols = [] := List.eq_nil_of_length_eq_zero hsymbols
      exact decodes_pure []
  | cons length stored ih =>
      intro symbols hsymbols
      cases symbols with
      | nil => exact absurd hsymbols (by simp)
      | cons symbol symbols =>
          rw [List.mapM_cons, bind_assoc, List.flatMap_cons]
          refine (decodes_number (hstored length (by simp))).bind ?_
          rw [pure_bind]
          exact (ih (fun other hother => hstored other (by simp [hother]))
            symbols (by simpa using hsymbols)).bind_pure ((symbol, length) :: ·)

theorem decodes_lengthCode {stored : List ℕ} (hstored : stored.length ≤ 19)
    (hsmall : ∀ length ∈ stored, length < 8)
    (hcomplete : AreComplete (ofStored stored)) :
    Decodes (BlockCodes.lengthCode stored.length) position output
      (stored.flatMap (lowBits 3)) (ofLengths (ofStored stored).toArray) output := by
  rw [BlockCodes.lengthCode, ← List.append_nil (stored.flatMap (lowBits 3))]
  refine (decodes_stored hsmall _ (length_take_lengthOrder hstored)).bind ?_
  rw [foldl_stored hstored]
  exact (decodes_ensure (isComplete_ofLengths_iff.mpr hcomplete)).bind_pure fun _ => _

theorem tells_stored (symbols : List ℕ) :
    Tells (symbols.mapM fun symbol => return (symbol, ← number 3)) position output
      fun read pairs final => ∃ stored : List ℕ, stored.length = symbols.length ∧
        (∀ length ∈ stored, length < 8) ∧ read = stored.flatMap (lowBits 3) ∧
          pairs = symbols.zip stored ∧ final = output := by
  induction symbols generalizing position with
  | nil => exact tells_pure ⟨[], rfl, by simp, rfl, rfl, rfl⟩
  | cons symbol symbols ih =>
      rw [List.mapM_cons, bind_assoc]
      refine (tells_number 3).bind ?_
      rintro _ length _ ⟨hlength, rfl, rfl⟩
      rw [pure_bind]
      refine ih.bind_pure ((symbol, length) :: ·) ?_
      rintro _ _ _ ⟨stored, hcount, hsmall, rfl, rfl, rfl⟩
      refine ⟨length :: stored, ?_, ?_, ?_, rfl, rfl⟩
      · rw [List.length_cons, hcount, List.length_cons]
      · exact List.forall_mem_cons.mpr ⟨hlength, hsmall⟩
      · rw [List.flatMap_cons]

theorem tells_lengthCode {count : ℕ} (hcount : count ≤ 19) :
    Tells (BlockCodes.lengthCode count) position output fun read code final =>
      ∃ stored : List ℕ, stored.length = count ∧ (∀ length ∈ stored, length < 8) ∧
        AreComplete (ofStored stored) ∧ read = stored.flatMap (lowBits 3) ∧
          code = ofLengths (ofStored stored).toArray ∧ final = output := by
  rw [BlockCodes.lengthCode]
  refine (tells_stored _).bind ?_
  rintro _ _ _ ⟨stored, hlength, hsmall, rfl, rfl, rfl⟩
  obtain rfl : stored.length = count := hlength.trans (length_take_lengthOrder hcount)
  rw [foldl_stored hcount]
  refine (tells_ensure _).bind_pure _ ?_
  rintro _ _ _ ⟨rfl, rfl, hcomplete⟩
  refine ⟨stored, rfl, hsmall, isComplete_ofLengths_iff.mp hcomplete, ?_, rfl, rfl⟩
  rw [List.append_nil]

/-! ## Stretches of lengths -/

theorem decodes_stretch {last : Option ℕ} {symbol : ℕ} {extra : List Bool}
    {added : List ℕ} (hstretch : Stretch last symbol extra added) :
    Decodes (BlockCodes.stretch last symbol) position output extra added.toArray
      output := by
  cases hstretch with
  | length hsymbol =>
      rw [BlockCodes.stretch, if_pos hsymbol]
      exact decodes_pure _
  | again hextra =>
      rw [BlockCodes.stretch, if_neg (by decide), if_pos rfl,
        List.toArray_replicate]
      exact (decodes_number hextra).bind_pure fun extra =>
        Array.replicate (3 + extra) _
  | zeros hextra =>
      rw [BlockCodes.stretch, if_neg (by decide), if_neg (by decide), if_pos rfl,
        List.toArray_replicate]
      exact (decodes_number hextra).bind_pure fun extra =>
        Array.replicate (3 + extra) 0
  | manyZeros hextra =>
      rw [BlockCodes.stretch, if_neg (by decide), if_neg (by decide),
        if_neg (by decide), List.toArray_replicate]
      exact (decodes_number hextra).bind_pure fun extra =>
        Array.replicate (11 + extra) 0

theorem tells_stretch {last : Option ℕ} {symbol : ℕ} (hsymbol : symbol ≤ 18) :
    Tells (BlockCodes.stretch last symbol) position output fun read added final =>
      ∃ lengths, Stretch last symbol read lengths ∧ added = lengths.toArray ∧
        final = output := by
  rw [BlockCodes.stretch]
  split_ifs with hlength hagain hzeros
  · exact tells_pure ⟨[symbol], .length hlength, rfl, rfl⟩
  · subst hagain
    cases last with
    | none => exact (tells_number 2).bind fun _ _ _ _ => tells_throw .corrupt
    | some length =>
        refine (tells_number 2).bind_pure _ ?_
        rintro _ extra _ ⟨hextra, rfl, rfl⟩
        exact ⟨List.replicate (3 + extra) length, .again hextra, by simp, rfl⟩
  · subst hzeros
    refine (tells_number 3).bind_pure (fun extra => Array.replicate (3 + extra) 0) ?_
    rintro _ extra _ ⟨hextra, rfl, rfl⟩
    exact ⟨List.replicate (3 + extra) 0, .zeros hextra, by simp, rfl⟩
  · obtain rfl : symbol = 18 := by omega
    refine (tells_number 7).bind_pure (fun extra => Array.replicate (11 + extra) 0) ?_
    rintro _ extra _ ⟨hextra, rfl, rfl⟩
    exact ⟨List.replicate (11 + extra) 0, .manyZeros hextra, by simp, rfl⟩

theorem Stretch.added_ne_nil {last : Option ℕ} {symbol : ℕ} {extra : List Bool}
    {added : List ℕ} (hstretch : Stretch last symbol extra added) :
    0 < added.length := by
  cases hstretch <;> simp

theorem Stretches.length_le {code lengths final : List ℕ} {bits : List Bool}
    (hstretches : Stretches code lengths bits final) :
    lengths.length ≤ final.length := by
  induction hstretches with
  | none => exact le_rfl
  | more _ _ _ ih =>
      rw [List.length_append] at ih
      exact (Nat.le_add_right _ _).trans ih

theorem decodes_wordLengths {code lengths final : List ℕ} {bits : List Bool}
    (hstretches : Stretches code lengths bits final) (rounds : ℕ)
    (hrounds : final.length ≤ lengths.length + rounds) :
    Decodes (BlockCodes.wordLengths (ofLengths code.toArray) final.length rounds
      lengths.toArray) position output bits final.toArray output := by
  -- Every stretch adds a length, so there are rounds for all of them.
  induction hstretches generalizing position rounds with
  | none =>
      cases rounds with
      | zero => exact decodes_pure _
      | succ rounds =>
          rw [BlockCodes.wordLengths, if_pos (by simp)]
          exact decodes_pure _
  | @more lengths final added symbol word extra bits hword hstretch hrest ih =>
      have hadded := hstretch.added_ne_nil
      have hless := hrest.length_le
      rw [List.length_append] at hless ih
      obtain ⟨fewer, rfl⟩ : ∃ fewer, rounds = fewer + 1 :=
        Nat.exists_eq_succ_of_ne_zero (by omega)
      rw [BlockCodes.wordLengths, if_neg (by simp; omega), List.append_assoc]
      refine (decodes_symbol hword).bind ?_
      rw [List.back?_toArray]
      refine (decodes_stretch hstretch).bind ?_
      rw [List.append_toArray]
      exact ih fewer (by omega)

theorem tells_wordLengths {code : List ℕ} (hcode : code.length = 19)
    (total rounds : ℕ) (lengths : List ℕ) :
    Tells (BlockCodes.wordLengths (ofLengths code.toArray) total rounds
        lengths.toArray) position output
      fun read result final => ∃ all, Stretches code lengths read all ∧
        result = all.toArray ∧ final = output := by
  induction rounds generalizing lengths position with
  | zero => exact tells_pure ⟨lengths, .none, rfl, rfl⟩
  | succ rounds ih =>
      rw [BlockCodes.wordLengths]
      split_ifs with henough
      · exact tells_pure ⟨lengths, .none, rfl, rfl⟩
      · refine tells_symbol.bind ?_
        rintro word symbol _ ⟨hword, rfl⟩
        obtain ⟨hsymbol, -⟩ := List.getElem?_eq_some_iff.mp hword.length_eq
        rw [List.back?_toArray]
        refine (tells_stretch (by omega)).bind ?_
        rintro extra _ _ ⟨added, hstretch, rfl, rfl⟩
        rw [List.append_toArray]
        refine (ih _).imp ?_
        rintro bits _ _ ⟨all, hrest, rfl, rfl⟩
        refine ⟨all, ?_, rfl, rfl⟩
        rw [← List.append_assoc]
        exact .more hword hstretch hrest

theorem decodes_described {lengths : BlockLengths} {description : List Bool}
    (hdescribed : Described lengths description) :
    Decodes BlockCodes.described position output description lengths.codes
      output := by
  obtain ⟨symbols, distances⟩ := lengths
  obtain ⟨hsymbols, hdistances, ⟨hsymbolsUsable, hdistancesUsable⟩, stored,
    bits, hstored, hsmall, hcomplete, hstretches, rfl⟩ := hdescribed
  dsimp only at hsymbols hdistances hsymbolsUsable hdistancesUsable hstretches ⊢
  have hsymbolCount : 257 + (symbols.length - 257) = symbols.length := by omega
  have hdistanceCount : 1 + (distances.length - 1) = distances.length := by omega
  have hstoredCount : 4 + (stored.length - 4) = stored.length := by omega
  have htotal : (symbols ++ distances).length = symbols.length + distances.length :=
    List.length_append
  rw [BlockCodes.described]
  simp only [List.append_assoc]
  refine (decodes_number (by omega)).bind ?_
  refine (decodes_number (by omega)).bind ?_
  refine (decodes_number (by omega)).bind ?_
  simp only [hsymbolCount, hdistanceCount, hstoredCount]
  refine (decodes_ensure (by simp; omega)).bind_of_nil ?_
  refine (decodes_lengthCode hstored.2 hsmall hcomplete).bind ?_
  rw [← htotal, ← List.append_nil bits]
  refine (decodes_wordLengths hstretches _ (by simp)).bind ?_
  refine (decodes_ensure (by simp)).bind_of_nil ?_
  have hfront : (symbols ++ distances).toArray.extract 0 symbols.length =
      symbols.toArray := by simp
  have hback : (symbols ++ distances).toArray.extract symbols.length
      (symbols ++ distances).length = distances.toArray := by simp
  rw [hfront, hback, isUsable_ofLengths_iff.mpr hsymbolsUsable,
    isUsable_ofLengths_iff.mpr hdistancesUsable]
  exact (decodes_ensure rfl).bind_pure fun _ => _

/-- All lengths together are a description if they are usable on both sides of
the place where those for symbols end. -/
theorem described_of_stretches {symbolCount distanceCount storedCount : ℕ}
    {all stored : List ℕ} {bits : List Bool} (hsymbolCount : 257 + symbolCount ≤ 286)
    (hdistanceCount : 1 + distanceCount ≤ 30) (hstoredCount : storedCount < 2 ^ 4)
    (hall : all.length = 257 + symbolCount + (1 + distanceCount))
    (hstored : stored.length = 4 + storedCount)
    (hsmall : ∀ length ∈ stored, length < 8) (hcomplete : AreComplete (ofStored stored))
    (hstretches : Stretches (ofStored stored) [] bits all)
    (husable : AreUsable (all.take (257 + symbolCount)) ∧
      AreUsable (all.drop (257 + symbolCount))) :
    Described ⟨all.take (257 + symbolCount), all.drop (257 + symbolCount)⟩
      (lowBits 5 symbolCount ++ lowBits 5 distanceCount ++ lowBits 4 storedCount ++
        stored.flatMap (lowBits 3) ++ bits) := by
  have hsymbols : (all.take (257 + symbolCount)).length = 257 + symbolCount := by
    rw [List.length_take]
    omega
  have hdistances : (all.drop (257 + symbolCount)).length = 1 + distanceCount := by
    rw [List.length_drop]
    omega
  refine ⟨?_, ?_, husable, stored, bits, ?_, hsmall, hcomplete, ?_, ?_⟩
  · dsimp only
    omega
  · dsimp only
    omega
  · omega
  · rwa [List.take_append_drop]
  · simp only [hsymbols, hdistances, hstored, Nat.add_sub_cancel_left]

theorem tells_described :
    Tells BlockCodes.described position output fun read codes final =>
      ∃ lengths : BlockLengths, Described lengths read ∧ codes = lengths.codes ∧
        final = output := by
  rw [BlockCodes.described]
  refine (tells_number 5).bind ?_
  rintro _ symbolCount _ ⟨-, rfl, rfl⟩
  refine (tells_number 5).bind ?_
  rintro _ distanceCount _ ⟨-, rfl, rfl⟩
  refine (tells_number 4).bind ?_
  rintro _ storedCount _ ⟨hstoredCount, rfl, rfl⟩
  refine (tells_ensure _).bind ?_
  rintro _ _ _ ⟨rfl, rfl, hcounts⟩
  refine (tells_lengthCode (by omega)).bind ?_
  rintro _ _ _ ⟨stored, hstored, hsmall, hcomplete, rfl, rfl, rfl⟩
  refine (tells_wordLengths (by simp [ofStored]; rfl) _ _ []).bind ?_
  rintro bits _ _ ⟨all, hstretches, rfl, rfl⟩
  refine (tells_ensure _).bind ?_
  rintro _ _ _ ⟨rfl, rfl, htotal⟩
  refine (tells_ensure _).bind_pure _ ?_
  rintro _ _ _ ⟨rfl, rfl, husable⟩
  simp only [Bool.and_eq_true, decide_eq_true_eq] at hcounts
  simp only [decide_eq_true_eq, List.size_toArray] at htotal
  have hfront : all.toArray.extract 0 (257 + symbolCount) =
      (all.take (257 + symbolCount)).toArray := by simp
  have hback : all.toArray.extract (257 + symbolCount)
      (257 + symbolCount + (1 + distanceCount)) =
        (all.drop (257 + symbolCount)).toArray := by
    rw [← htotal]
    simp
  rw [hfront, hback] at husable ⊢
  simp only [Bool.and_eq_true, isUsable_ofLengths_iff] at husable
  refine ⟨⟨all.take (257 + symbolCount), all.drop (257 + symbolCount)⟩, ?_, rfl, rfl⟩
  have hdescribed := described_of_stretches hcounts.1 hcounts.2 hstoredCount htotal hstored
    hsmall hcomplete hstretches husable
  simpa only [List.append_assoc, List.append_nil, List.nil_append] using hdescribed

end BlockLengths

end PackedTopology.Zlib
