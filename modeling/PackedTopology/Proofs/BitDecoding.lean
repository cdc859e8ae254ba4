import PackedTopology.Proofs.StreamFormat

/-!
# What a decoding takes and leaves

A decoding of some bits is told by the bits it reads and the bytes it adds.  If
all the bytes fit the room, it goes on behind the bits; if they do not, it stops
because the room is full, whatever else it would have read.  In turn, a decoding
that succeeds has read bits of which something can be told.  Decodings put
together read their bits one after the other, so a decoder follows a format
part by part, and accepts nothing else.
-/

namespace PackedTopology.Zlib

theorem exists_low_high (value : ℕ) :
    ∃ (low : Bool) (high : ℕ), value = low.toNat + 2 * high := by
  refine ⟨value.testBit 0, value / 2, ?_⟩
  rw [Nat.testBit_zero]
  rcases Nat.mod_two_eq_zero_or_one value with h | h <;> simp [h] <;> omega

theorem lowBits_succ (count : ℕ) (low : Bool) (high : ℕ) :
    lowBits (count + 1) (low.toNat + 2 * high) = low :: lowBits count high := by
  have hlow : (low.toNat + 2 * high).testBit 0 = low := by
    rw [Nat.testBit_zero]
    cases low <;> simp
  have hhigh : (low.toNat + 2 * high) / 2 = high := by
    have hsmall := Bool.toNat_le low
    omega
  rw [lowBits, List.range_succ_eq_map, List.map_cons, List.map_map, hlow]
  simp only [lowBits, Function.comp_def, Nat.testBit_succ, hhigh]

theorem exists_lowBits (bits : List Bool) :
    ∃ value < 2 ^ bits.length, lowBits bits.length value = bits := by
  induction bits with
  | nil => exact ⟨0, by decide, rfl⟩
  | cons low bits ih =>
      obtain ⟨high, hhigh, hbits⟩ := ih
      refine ⟨low.toNat + 2 * high, ?_, ?_⟩
      · rw [List.length_cons, pow_succ]
        have hsmall := Bool.toNat_le low
        omega
      · rw [List.length_cons, lowBits_succ, hbits]

/-- The bits ahead at a position of the stream: less than a byte is begun, and
the position tells how many of its bits are left. -/
structure Bits.At (bits : Bits) (position : ℕ) (ahead : List Bool) : Prop where
  pending_lt : bits.pending.length < 8
  toList_eq : bits.toList = ahead
  aligned : (position + ahead.length) % 8 = 0

namespace Bits

@[simp] theorem length_ofByte (byte : UInt8) : (ofByte byte).length = 8 := by
  simp [ofByte]

theorem length_flatMap_ofByte (bytes : List UInt8) :
    (bytes.flatMap ofByte).length = 8 * bytes.length := by
  induction bytes with
  | nil => rfl
  | cons byte bytes ih =>
      rw [List.flatMap_cons, List.length_append, length_ofByte, ih,
        List.length_cons]
      omega

theorem ofByte_injective : Function.Injective ofByte := by
  intro byte other hbits
  apply UInt8.toNat_inj.mp
  apply Nat.eq_of_testBit_eq
  intro place
  by_cases hplace : place < 8
  · exact List.map_inj_left.mp hbits place (List.mem_range.mpr hplace)
  · have hlarge : 2 ^ 8 ≤ 2 ^ place := Nat.pow_le_pow_right (by decide) (by omega)
    rw [Nat.testBit_lt_two_pow (byte.toNat_lt.trans_le hlarge),
      Nat.testBit_lt_two_pow (other.toNat_lt.trans_le hlarge)]

theorem flatMap_ofByte_injective : Function.Injective (List.flatMap ofByte) := by
  intro bytes
  induction bytes with
  | nil =>
      intro others hbits
      have hlength := congrArg List.length hbits
      rw [length_flatMap_ofByte, length_flatMap_ofByte, List.length_nil] at hlength
      exact (List.eq_nil_of_length_eq_zero (by omega)).symm
  | cons byte bytes ih =>
      intro others hbits
      cases others with
      | nil => exact absurd hbits (by simp [ofByte])
      | cons other others =>
          rw [List.flatMap_cons, List.flatMap_cons] at hbits
          obtain ⟨hbyte, hrest⟩ := List.append_inj hbits (by simp)
          rw [ofByte_injective hbyte, ih hrest]

/-- As many bits as whole bytes have are the bits of some bytes. -/
theorem exists_bytes (count : ℕ) {bits : List Bool} (hbits : bits.length = 8 * count) :
    ∃ bytes : List UInt8, bytes.flatMap ofByte = bits := by
  induction count generalizing bits with
  | zero => exact ⟨[], (List.eq_nil_of_length_eq_zero hbits).symm⟩
  | succ count ih =>
      have hfirst : (bits.take 8).length = 8 := by
        rw [List.length_take]
        omega
      obtain ⟨bytes, hrest⟩ := @ih (bits.drop 8) (by rw [List.length_drop]; omega)
      obtain ⟨value, hvalue, hbyte⟩ := exists_lowBits (bits.take 8)
      rw [hfirst] at hvalue hbyte
      refine ⟨UInt8.ofNat value :: bytes, ?_⟩
      rw [List.flatMap_cons, hrest]
      show lowBits 8 (UInt8.ofNat value).toNat ++ _ = _
      rw [UInt8.toNat_ofNat', Nat.mod_eq_of_lt hvalue, hbyte, List.take_append_drop]

/-- Bytes that begin with the bits of others begin with these bytes. -/
theorem exists_of_flatMap_ofByte {bytes front : List UInt8} {rest : List Bool}
    (hbits : bytes.flatMap ofByte = front.flatMap ofByte ++ rest) :
    ∃ back, bytes = front ++ back := by
  have hlength := congrArg List.length hbits
  rw [List.length_append, length_flatMap_ofByte, length_flatMap_ofByte] at hlength
  have hsplit := List.take_append_drop front.length bytes
  rw [← hsplit, List.flatMap_append] at hbits
  obtain ⟨hfront, -⟩ := List.append_inj hbits (by
    rw [length_flatMap_ofByte, length_flatMap_ofByte, List.length_take]
    omega)
  rw [flatMap_ofByte_injective hfront] at hsplit
  exact ⟨_, hsplit.symm⟩

theorem size_eq_length (bits : Bits) : bits.size = bits.toList.length := by
  rw [size, toList, List.length_append, length_flatMap_ofByte]

theorem at_ofBytes (bytes : List UInt8) :
    (ofBytes bytes).At 0 (bytes.flatMap ofByte) where
  pending_lt := Nat.zero_lt_succ 7
  toList_eq := rfl
  aligned := by
    rw [length_flatMap_ofByte]
    omega

variable {bits : Bits} {position : ℕ} {ahead rest : List Bool}

theorem At.exists_next {bit : Bool} (hbits : bits.At position (bit :: rest)) :
    ∃ left : Bits, bits.next? = some (bit, left) ∧
      left.At (position + 1) rest := by
  obtain ⟨pending, bytes⟩ := bits
  obtain ⟨hpending, hlist, haligned⟩ := hbits
  have hborder : (position + 1 + rest.length) % 8 = 0 := by
    rwa [List.length_cons, Nat.add_comm _ 1, ← Nat.add_assoc] at haligned
  cases pending with
  | cons first pending =>
      obtain ⟨rfl, hrest⟩ := List.cons.inj hlist
      exact ⟨⟨pending, bytes⟩, rfl,
        ⟨Nat.lt_of_succ_lt hpending, hrest, hborder⟩⟩
  | nil =>
      cases bytes with
      | nil => exact absurd hlist (by simp [toList])
      | cons byte bytes =>
          obtain ⟨rfl, hrest⟩ := List.cons.inj hlist
          exact ⟨⟨(ofByte byte).tail, bytes⟩, rfl, ⟨by simp, hrest, hborder⟩⟩

theorem At.next?_eq_none (hbits : bits.At position []) : bits.next? = none := by
  obtain ⟨pending, bytes⟩ := bits
  obtain ⟨rfl, hbytes⟩ := List.append_eq_nil_iff.mp hbits.toList_eq
  cases bytes with
  | nil => rfl
  | cons byte bytes => exact absurd hbytes (by simp [ofByte])

/-- Up to the next border of a byte, a position tells the bits that are dropped
there. -/
theorem At.align {padding : List Bool}
    (hbits : bits.At position (padding ++ rest)) (hpadding : padding.length < 8)
    (hborder : (position + padding.length) % 8 = 0) :
    bits.align.At (position + padding.length) rest := by
  obtain ⟨hpending, hlist, haligned⟩ := hbits
  have hlength := congrArg List.length hlist
  rw [← size_eq_length, size, List.length_append] at hlength
  rw [List.length_append, ← Nat.add_assoc] at haligned
  have hsame : bits.pending.length = padding.length := by omega
  obtain ⟨-, hrest⟩ := List.append_inj hlist hsame
  exact ⟨Nat.zero_lt_succ 7, hrest, haligned⟩

theorem At.length_pending (hbits : bits.At position ahead) :
    (position + bits.pending.length) % 8 = 0 := by
  have haligned := hbits.aligned
  rw [← hbits.toList_eq, ← size_eq_length, size] at haligned
  omega

theorem At.length_le_size (hbits : bits.At position (ahead ++ rest)) :
    ahead.length ≤ bits.size := by
  rw [size_eq_length, hbits.toList_eq, List.length_append]
  exact Nat.le_add_right _ _

end Bits

namespace Decoding

variable {α β : Type} {position : ℕ} {output middle final : List UInt8}
  {read more : List Bool}

/-- What a decoding does at a position behind some output: it reads some bits
and extends the output, or finds the room full. -/
structure Decodes (decoding : Decoding α) (position : ℕ) (output : List UInt8)
    (read : List Bool) (value : α) (final : List UInt8) : Prop where
  grows : output.length ≤ final.length
  runs : ∀ (bits : Bits) (rest : List Bool) (room : ℕ),
    bits.At position (read ++ rest) → final.length ≤ room →
      ∃ left : Bits, left.At (position + read.length) rest ∧
        decoding.run ⟨bits, output.toArray, room⟩ =
          .ok (value, ⟨left, final.toArray, room⟩)
  fills : ∀ (bits : Bits) (rest : List Bool) (room : ℕ),
    bits.At position (read ++ rest) → output.length ≤ room →
      room < final.length →
        decoding.run ⟨bits, output.toArray, room⟩ = .error .full

/-! ## Parts -/

/-- A decoding that adds nothing never finds the room full. -/
theorem decodes_of_runs {decoding : Decoding α} {value : α}
    (hruns : ∀ (bits : Bits) (rest : List Bool) (room : ℕ),
      bits.At position (read ++ rest) →
        ∃ left : Bits, left.At (position + read.length) rest ∧
          decoding.run ⟨bits, output.toArray, room⟩ =
            .ok (value, ⟨left, output.toArray, room⟩)) :
    Decodes decoding position output read value output where
  grows := le_rfl
  runs bits rest room hbits _ := hruns bits rest room hbits
  fills _ _ _ _ hroom hfull := absurd hroom (Nat.not_le_of_lt hfull)

theorem decodes_pure (value : α) :
    Decodes (pure value) position output [] value output :=
  decodes_of_runs fun bits _ _ hbits => ⟨bits, hbits, rfl⟩

/-- A decoding that reads on where another one stopped. -/
theorem Decodes.bind {first : Decoding α} {next : α → Decoding β} {value : α}
    {result : β} (hfirst : Decodes first position output read value middle)
    (hnext : Decodes (next value) (position + read.length) middle more result
      final) :
    Decodes (first >>= next) position output (read ++ more) result final where
  grows := hfirst.grows.trans hnext.grows
  runs bits rest room hbits hroom := by
    rw [List.append_assoc] at hbits
    obtain ⟨left, hleft, hrun⟩ :=
      hfirst.runs bits (more ++ rest) room hbits (hnext.grows.trans hroom)
    obtain ⟨last, hlast, hrest⟩ := hnext.runs left rest room hleft hroom
    refine ⟨last, ?_, ?_⟩
    · rwa [List.length_append, ← Nat.add_assoc]
    · rw [StateT.run_bind, hrun]
      exact hrest
  fills bits rest room hbits hroom hfull := by
    rw [List.append_assoc] at hbits
    rw [StateT.run_bind]
    by_cases hmiddle : middle.length ≤ room
    · obtain ⟨left, hleft, hrun⟩ :=
        hfirst.runs bits (more ++ rest) room hbits hmiddle
      rw [hrun]
      exact hnext.fills left rest room hleft hmiddle hfull
    · rw [hfirst.fills bits (more ++ rest) room hbits hroom
        (Nat.lt_of_not_le hmiddle)]
      rfl

theorem Decodes.bind_pure {decoding : Decoding α} {value : α} (change : α → β)
    (hdecodes : Decodes decoding position output read value final) :
    Decodes (decoding >>= fun value => pure (change value)) position output read
      (change value) final := by
  rw [← List.append_nil read]
  exact hdecodes.bind (decodes_pure (change value))

/-- A part that reads nothing leaves all bits to the next one. -/
theorem Decodes.bind_of_nil {first : Decoding α} {next : α → Decoding β} {value : α}
    {result : β} (hfirst : Decodes first position output [] value middle)
    (hnext : Decodes (next value) position middle more result final) :
    Decodes (first >>= next) position output more result final :=
  hfirst.bind hnext

/-- A decoding may depend on the output so far and on how many bits there are,
which are no fewer than those it reads. -/
theorem Decodes.get_bind {next : Progress → Decoding α} {value : α}
    (hnext : ∀ progress : Progress, progress.output = output.toArray →
      read.length ≤ progress.bits.size →
        Decodes (next progress) position output read value final)
    (hgrows : output.length ≤ final.length) :
    Decodes (get >>= next) position output read value final := by
  refine ⟨hgrows, ?_, ?_⟩
  · intro bits rest room hbits hroom
    exact (hnext ⟨bits, output.toArray, room⟩ rfl hbits.length_le_size).runs
      bits rest room hbits hroom
  · intro bits rest room hbits hroom hfull
    exact (hnext ⟨bits, output.toArray, room⟩ rfl hbits.length_le_size).fills
      bits rest room hbits hroom hfull

theorem run_bit (progress : Progress) :
    bit.run progress =
      match progress.bits.next? with
      | some (value, left) => .ok (value, { progress with bits := left })
      | none => .error .exhausted := by
  rw [bit, StateT.run_bind, StateT.run_get, pure_bind]
  cases progress.bits.next? <;> rfl

theorem decodes_bit (value : Bool) :
    Decodes bit position output [value] value output := by
  apply decodes_of_runs
  intro bits rest room hbits
  obtain ⟨left, hnext, hleft⟩ := Bits.At.exists_next hbits
  exact ⟨left, hleft, by rw [run_bit, hnext]⟩

theorem Decodes.bit_bind {next : Bool → Decoding α} {value : Bool} {result : α}
    (hnext : Decodes (next value) (position + 1) output more result final) :
    Decodes (bit >>= next) position output (value :: more) result final :=
  (decodes_bit value).bind hnext

theorem decodes_number {count value : ℕ} (hvalue : value < 2 ^ count) :
    Decodes (number count) position output (lowBits count value) value
      output := by
  induction count generalizing value position with
  | zero =>
      obtain rfl : value = 0 := by simpa using hvalue
      exact decodes_pure 0
  | succ count ih =>
      obtain ⟨low, high, rfl⟩ := exists_low_high value
      have hhigh : high < 2 ^ count := by
        rw [pow_succ] at hvalue
        omega
      rw [number, lowBits_succ]
      exact Decodes.bit_bind ((ih hhigh).bind_pure _)

theorem decodes_ensure {holds : Bool} (hholds : holds = true) :
    Decodes (ensure holds) position output [] () output := by
  rw [ensure, if_pos hholds]
  exact decodes_pure ()

theorem decodes_align {padding : List Bool} (hpadding : padding.length < 8)
    (hborder : (position + padding.length) % 8 = 0) :
    Decodes align position output padding () output :=
  decodes_of_runs fun bits _ _ hbits =>
    ⟨bits.align, hbits.align hpadding hborder, rfl⟩

/-- A decoding that adds a byte at least may look at the room first. -/
theorem Decodes.of_room {decoding : Decoding α} {value : α}
    (hdecodes : Decodes decoding position output read value final)
    (hadds : output.length < final.length) :
    Decodes (do
      let progress ← get
      if progress.output.size < progress.room then
        decoding
      else
        throw .full) position output read value final where
  grows := hdecodes.grows
  runs bits rest room hbits hroom := by
    obtain ⟨left, hleft, hrun⟩ := hdecodes.runs bits rest room hbits hroom
    refine ⟨left, hleft, ?_⟩
    show (if output.length < room then decoding else throw .full).run _ = _
    rw [if_pos (Nat.lt_of_lt_of_le hadds hroom), hrun]
  fills bits rest room hbits hroom hfull := by
    show (if output.length < room then decoding else throw .full).run _ = _
    by_cases hmore : output.length < room
    · rw [if_pos hmore, hdecodes.fills bits rest room hbits hroom hfull]
    · rw [if_neg hmore]
      rfl

theorem decodes_emit (byte : UInt8) :
    Decodes (emit byte) position output [] () (output ++ [byte]) where
  grows := by simp
  runs bits _ room hbits hroom := by
    refine ⟨bits, hbits, ?_⟩
    rw [List.length_append, List.length_singleton] at hroom
    show StateT.run (if output.length < room then _ else _) _ = _
    rw [if_pos (Nat.lt_of_succ_le hroom), ← List.push_toArray]
    rfl
  fills bits _ room _ _ hfull := by
    rw [List.length_append, List.length_singleton] at hfull
    show StateT.run (if output.length < room then _ else _) _ = _
    rw [if_neg (Nat.not_lt_of_le (Nat.le_of_lt_succ hfull))]
    rfl

/-! ## What a success tells -/

/-- Where a decoding succeeds, it has read some bits of those ahead, and what is
told holds of these bits, its value and the output. -/
def Tells (decoding : Decoding α) (position : ℕ) (output : List UInt8)
    (told : List Bool → α → List UInt8 → Prop) : Prop :=
  ∀ (bits : Bits) (ahead : List Bool) (room : ℕ) (value : α) (after : Progress),
    bits.At position ahead → output.length ≤ room →
      decoding.run ⟨bits, output.toArray, room⟩ = .ok (value, after) →
        ∃ (read rest : List Bool) (final : List UInt8) (left : Bits),
          ahead = read ++ rest ∧ left.At (position + read.length) rest ∧
            after = ⟨left, final.toArray, room⟩ ∧ final.length ≤ room ∧
            told read value final

variable {told : List Bool → α → List UInt8 → Prop}
  {toldNext : List Bool → β → List UInt8 → Prop}

theorem tells_pure {value : α} (htold : told [] value output) :
    Tells (pure value) position output told := by
  rintro bits ahead room _ _ hbits hroom hrun
  obtain ⟨rfl, rfl⟩ := Prod.mk.inj (Except.ok.inj hrun)
  exact ⟨[], ahead, output, bits, rfl, hbits, rfl, hroom, htold⟩

theorem tells_throw (trouble : Trouble) :
    Tells (throw trouble) position output told := by
  rintro _ _ _ _ _ _ _ ⟨⟩

theorem Tells.imp {decoding : Decoding α} {also : List Bool → α → List UInt8 → Prop}
    (htells : Tells decoding position output told)
    (himp : ∀ read value final, told read value final → also read value final) :
    Tells decoding position output also := by
  intro bits ahead room value after hbits hroom hrun
  obtain ⟨read, rest, final, left, hread, hleft, hafter, hfinal, htold⟩ :=
    htells bits ahead room value after hbits hroom hrun
  exact ⟨read, rest, final, left, hread, hleft, hafter, hfinal, himp _ _ _ htold⟩

/-- What the first part tells may be used to find out what the next one does. -/
theorem Tells.bind {first : Decoding α} {next : α → Decoding β}
    (hfirst : Tells first position output told)
    (hnext : ∀ read value middle, told read value middle →
      Tells (next value) (position + read.length) middle
        fun more => toldNext (read ++ more)) :
    Tells (first >>= next) position output toldNext := by
  intro bits ahead room result after hbits hroom hrun
  rw [StateT.run_bind] at hrun
  cases hstep : first.run ⟨bits, output.toArray, room⟩ with
  | error trouble =>
      rw [hstep] at hrun
      cases hrun
  | ok step =>
      obtain ⟨value, state⟩ := step
      rw [hstep] at hrun
      obtain ⟨read, rest, middle, left, rfl, hleft, rfl, hmiddle, htold⟩ :=
        hfirst bits ahead room value state hbits hroom hstep
      obtain ⟨more, rest, final, last, rfl, hlast, rfl, hfinal, htoldNext⟩ :=
        hnext read value middle htold left rest room result after hleft hmiddle hrun
      refine ⟨read ++ more, rest, final, last, ?_, ?_, rfl, hfinal, htoldNext⟩
      · rw [List.append_assoc]
      · rwa [List.length_append, ← Nat.add_assoc]

theorem Tells.bind_pure {decoding : Decoding α} (change : α → β)
    (htells : Tells decoding position output told)
    (himp : ∀ read value final, told read value final →
      toldNext read (change value) final) :
    Tells (decoding >>= fun value => pure (change value)) position output toldNext := by
  refine htells.bind fun read value final htold => tells_pure ?_
  rw [List.append_nil]
  exact himp read value final htold

theorem Tells.get_bind {next : Progress → Decoding α}
    (hnext : ∀ progress : Progress, progress.output = output.toArray →
      Tells (next progress) position output told) :
    Tells (get >>= next) position output told := by
  intro bits ahead room value after hbits hroom hrun
  exact hnext ⟨bits, output.toArray, room⟩ rfl bits ahead room value after hbits
    hroom hrun

theorem tells_bit :
    Tells bit position output fun read value final =>
      read = [value] ∧ final = output := by
  intro bits ahead room value after hbits hroom hrun
  cases ahead with
  | nil =>
      rw [run_bit, hbits.next?_eq_none] at hrun
      cases hrun
  | cons first rest =>
      obtain ⟨left, hnext, hleft⟩ := hbits.exists_next
      rw [run_bit, hnext] at hrun
      obtain ⟨rfl, rfl⟩ := Prod.mk.inj (Except.ok.inj hrun)
      exact ⟨[first], rest, output, left, rfl, hleft, rfl, hroom, rfl, rfl⟩

theorem tells_number (count : ℕ) :
    Tells (number count) position output fun read value final =>
      value < 2 ^ count ∧ read = lowBits count value ∧ final = output := by
  induction count generalizing position with
  | zero => exact tells_pure ⟨by decide, rfl, rfl⟩
  | succ count ih =>
      rw [number]
      refine tells_bit.bind ?_
      rintro _ low _ ⟨rfl, rfl⟩
      refine ih.bind_pure _ ?_
      rintro _ high _ ⟨hhigh, rfl, rfl⟩
      refine ⟨?_, (lowBits_succ count low high).symm, rfl⟩
      rw [pow_succ]
      have hsmall := Bool.toNat_le low
      omega

theorem tells_byte :
    Tells (number 8) position output fun read value final =>
      ∃ byte : UInt8, value = byte.toNat ∧ read = Bits.ofByte byte ∧ final = output := by
  refine (tells_number 8).imp ?_
  rintro _ value _ ⟨hvalue, rfl, rfl⟩
  have hbyte : (UInt8.ofNat value).toNat = value := by
    rw [UInt8.toNat_ofNat']
    exact Nat.mod_eq_of_lt hvalue
  refine ⟨UInt8.ofNat value, hbyte.symm, ?_, rfl⟩
  show _ = lowBits 8 (UInt8.ofNat value).toNat
  rw [hbyte]

theorem tells_ensure (holds : Bool) :
    Tells (ensure holds) position output fun read _ final =>
      read = [] ∧ final = output ∧ holds = true := by
  cases holds with
  | false => exact tells_throw .corrupt
  | true => exact tells_pure ⟨rfl, rfl, rfl⟩

theorem tells_align :
    Tells align position output fun read _ final =>
      read.length < 8 ∧ (position + read.length) % 8 = 0 ∧ final = output := by
  intro bits ahead room value after hbits hroom hrun
  obtain ⟨-, rfl⟩ := Prod.mk.inj (Except.ok.inj hrun)
  have hpadding := hbits.length_pending
  have hahead : ahead = bits.pending ++ bits.bytes.flatMap Bits.ofByte :=
    hbits.toList_eq.symm
  subst hahead
  exact ⟨bits.pending, _, output, bits.align, rfl,
    hbits.align hbits.pending_lt hpadding, rfl, hroom, hbits.pending_lt, hpadding, rfl⟩

theorem tells_emit (byte : UInt8) :
    Tells (emit byte) position output fun read _ final =>
      read = [] ∧ final = output ++ [byte] := by
  intro bits ahead room value after hbits hroom hrun
  have hstep : StateT.run (if output.length < room then _ else _) _ = _ := hrun
  by_cases hmore : output.length < room
  · rw [if_pos hmore] at hstep
    obtain ⟨-, rfl⟩ := Prod.mk.inj (Except.ok.inj hstep)
    refine ⟨[], ahead, output ++ [byte], bits, rfl, hbits, ?_, ?_, rfl, rfl⟩
    · rw [← List.push_toArray]
    · rwa [List.length_append, List.length_singleton]
  · rw [if_neg hmore] at hstep
    cases hstep

theorem Tells.of_room {decoding : Decoding α}
    (htells : Tells decoding position output told) :
    Tells (do
      let progress ← get
      if progress.output.size < progress.room then
        decoding
      else
        throw .full) position output told := by
  apply Tells.get_bind
  intro progress _
  split
  · exact htells
  · exact tells_throw .full

end Decoding

end PackedTopology.Zlib
