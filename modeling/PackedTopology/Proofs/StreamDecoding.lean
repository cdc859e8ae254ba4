import Mathlib.Data.List.Induction
import PackedTopology.Proofs.BlockDecoding

/-!
# Streams are decoded

A whole stream of some data gives back the data if they fit the room, and finds
the room full if they do not, whatever comes behind the stream.  The stream may
be any one that the format allows, and no other bytes give back any data.
-/

namespace PackedTopology.Zlib

open Decoding

variable {data stream : List UInt8}

/-- Both sums of a checksum stay within sixteen bits. -/
theorem checksum_lt (bytes : List UInt8) : checksum bytes < 2 ^ 32 := by
  have hmodulus : 0 < checksumModulus := by decide
  have hle : checksumModulus ≤ 2 ^ 16 := by decide
  unfold checksum
  split
  rename_i low high hsums
  have hsmall : (low, high).1 < checksumModulus ∧ (low, high).2 < checksumModulus := by
    rw [← hsums]
    exact List.foldlRecOn bytes _
      (motive := fun sums : ℕ × ℕ =>
        sums.1 < checksumModulus ∧ sums.2 < checksumModulus)
      ⟨by decide, by decide⟩
      fun _ _ _ _ => ⟨Nat.mod_lt _ hmodulus, Nat.mod_lt _ hmodulus⟩
  rw [Nat.shiftLeft_eq]
  omega

theorem bigEndian_four (value : ℕ) (hvalue : value < 2 ^ 32) :
    ∃ a b c d : UInt8, bigEndian 4 value = [a, b, c, d] ∧
      ((a.toNat * 256 + b.toNat) * 256 + c.toNat) * 256 + d.toNat = value := by
  refine ⟨_, _, _, _, rfl, ?_⟩
  simp only [UInt8.toNat_ofNat', Nat.shiftRight_eq_div_pow]
  omega

theorem Blocks.length_le {position : ℕ} {output final : List UInt8}
    {bits : List Bool} (hblocks : Blocks position output bits final) :
    output.length ≤ final.length :=
  (decodes_blocks hblocks _ (Nat.lt_succ_self _)).grows

theorem decodes_stream (hstream : IsStreamOf data stream) :
    Decodes Zlib.stream 0 [] (stream.flatMap Bits.ofByte) () data := by
  obtain ⟨method, flags, body, bits, padding, rfl, hheader, hbody, hpadding,
    hblocks⟩ := hstream
  obtain ⟨a, b, c, d, hbytes, hchecksum⟩ := bigEndian_four _ (checksum_lt data)
  have hborder : (16 + bits.length + padding.length) % 8 = 0 := by
    have hlength := congrArg List.length hbody
    rw [Bits.length_flatMap_ofByte, List.length_append] at hlength
    omega
  have hread : (method :: flags :: body ++ bigEndian 4 (checksum data)).flatMap
      Bits.ofByte =
        Bits.ofByte method ++ (Bits.ofByte flags ++ (bits ++ (padding ++
          (Bits.ofByte a ++ (Bits.ofByte b ++ (Bits.ofByte c ++
            Bits.ofByte d)))))) := by
    rw [hbytes, List.flatMap_append]
    simp [hbody]
  rw [hread, Zlib.stream]
  refine (decodes_number method.toNat_lt).bind ?_
  refine (decodes_number flags.toNat_lt).bind ?_
  refine (decodes_ensure hheader).bind_of_nil ?_
  refine Decodes.get_bind (fun progress _ hsize => ?_) hblocks.length_le
  rw [List.length_append] at hsize
  refine (decodes_blocks hblocks _ (by omega)).bind ?_
  refine (decodes_align hpadding hborder).bind ?_
  refine (decodes_number a.toNat_lt).bind ?_
  refine (decodes_number b.toNat_lt).bind ?_
  refine (decodes_number c.toNat_lt).bind ?_
  rw [← List.append_nil (Bits.ofByte d)]
  refine (decodes_number d.toNat_lt).bind ?_
  refine Decodes.get_bind (fun progress houtput _ => ?_) le_rfl
  rw [houtput]
  exact decodes_ensure (decide_eq_true hchecksum)

theorem bigEndian_of_sum {a b c d : UInt8} {value : ℕ}
    (hvalue : ((a.toNat * 256 + b.toNat) * 256 + c.toNat) * 256 + d.toNat = value) :
    bigEndian 4 value = [a, b, c, d] := by
  have ha := a.toNat_lt
  have hb := b.toNat_lt
  have hc := c.toNat_lt
  have hd := d.toNat_lt
  simp only [bigEndian, List.cons.injEq, ← UInt8.toNat_inj, UInt8.toNat_ofNat',
    Nat.shiftRight_eq_div_pow, and_true]
  refine ⟨?_, ?_, ?_, ?_⟩ <;> omega

theorem tells_stream :
    Tells Zlib.stream 0 [] fun read _ data =>
      ∃ stream, IsStreamOf data stream ∧ read = stream.flatMap Bits.ofByte := by
  rw [Zlib.stream]
  refine tells_byte.bind ?_
  rintro _ _ _ ⟨method, rfl, rfl, rfl⟩
  refine tells_byte.bind ?_
  rintro _ _ _ ⟨flags, rfl, rfl, rfl⟩
  refine (tells_ensure _).bind ?_
  rintro _ _ _ ⟨rfl, rfl, hheader⟩
  refine Tells.get_bind fun progress _ => ?_
  refine (tells_blocks _).bind fun bits _ data hblocks => ?_
  refine tells_align.bind ?_
  rintro padding _ data ⟨hpadding, hborder, rfl⟩
  refine tells_byte.bind ?_
  rintro _ _ data ⟨a, rfl, rfl, rfl⟩
  refine tells_byte.bind ?_
  rintro _ _ data ⟨b, rfl, rfl, rfl⟩
  refine tells_byte.bind ?_
  rintro _ _ data ⟨c, rfl, rfl, rfl⟩
  refine tells_byte.bind ?_
  rintro _ _ data ⟨d, rfl, rfl, rfl⟩
  refine Tells.get_bind fun progress houtput => ?_
  refine (tells_ensure _).imp ?_
  rintro _ _ data ⟨rfl, rfl, hchecksum⟩
  have hsum := decide_eq_true_eq.mp hchecksum
  simp only [houtput, List.toList_toArray] at hsum
  simp only [Bits.length_ofByte, List.length_nil] at hblocks hborder
  obtain ⟨body, hbody⟩ := @Bits.exists_bytes ((bits.length + padding.length) / 8)
    (bits ++ padding) (by rw [List.length_append]; omega)
  refine ⟨method :: flags :: body ++ bigEndian 4 (checksum data),
    ⟨method, flags, body, bits, padding, rfl, hheader, hbody, hpadding, hblocks⟩, ?_⟩
  rw [bigEndian_of_sum hsum]
  simp [hbody]

/-- A whole stream of some data is read as these data, whatever comes behind it,
if they fit the room; else the room is found full. -/
theorem decompress_of_isStreamOf (hstream : IsStreamOf data stream)
    (rest : List UInt8) (room : ℕ) :
    (data.length ≤ room → decompress room (stream ++ rest) = .ok data) ∧
      (room < data.length → decompress room (stream ++ rest) = .error .full) := by
  have hbits := Bits.at_ofBytes (stream ++ rest)
  rw [List.flatMap_append] at hbits
  have hdecodes := decodes_stream hstream
  constructor
  · intro hroom
    obtain ⟨left, -, hrun⟩ := hdecodes.runs _ _ room hbits hroom
    rw [decompress, hrun]
  · intro hfull
    have hrun := hdecodes.fills _ _ room hbits (Nat.zero_le _) hfull
    rw [decompress, hrun]

/-- Bytes are read as some data only if they begin with a whole stream of these
data, and the data fit the room. -/
theorem decompress_eq_ok_iff {bytes : List UInt8} {room : ℕ} :
    decompress room bytes = .ok data ↔
      data.length ≤ room ∧ ∃ stream rest, bytes = stream ++ rest ∧ IsStreamOf data stream := by
  constructor
  · intro hdata
    rw [decompress] at hdata
    cases hrun : Zlib.stream.run ⟨.ofBytes bytes, #[], room⟩ with
    | error trouble =>
        rw [hrun] at hdata
        cases hdata
    | ok step =>
        obtain ⟨value, after⟩ := step
        obtain ⟨_, rest, final, left, hread, -, rfl, hroom, stream, hstream, rfl⟩ :=
          tells_stream _ _ room value after (Bits.at_ofBytes bytes) (Nat.zero_le _) hrun
        rw [hrun] at hdata
        obtain rfl : final = data := by simpa using hdata
        obtain ⟨more, hbytes⟩ := Bits.exists_of_flatMap_ofByte hread
        exact ⟨hroom, stream, more, hbytes, hstream⟩
  · rintro ⟨hroom, stream, rest, rfl, hstream⟩
    exact (decompress_of_isStreamOf hstream rest room).1 hroom

/-- The same bytes do not begin with whole streams of different data. -/
theorem IsStreamOf.unique {other front rest behind : List UInt8}
    (hstream : IsStreamOf data stream) (hother : IsStreamOf other front)
    (hbytes : stream ++ rest = front ++ behind) : data = other ∧ stream = front := by
  -- Both are decoded from the same bytes, with room for either, to one result.
  have hbits := Bits.at_ofBytes (stream ++ rest)
  have hbits' := hbits
  rw [List.flatMap_append] at hbits
  rw [hbytes, List.flatMap_append, ← hbytes] at hbits'
  obtain ⟨left, hleft, hrun⟩ := (decodes_stream hstream).runs _ _
    (max data.length other.length) hbits (Nat.le_max_left _ _)
  obtain ⟨left', hleft', hrun'⟩ := (decodes_stream hother).runs _ _
    (max data.length other.length) hbits' (Nat.le_max_right _ _)
  have hsame := hrun.symm.trans hrun'
  simp only [Except.ok.injEq, Prod.mk.injEq, Progress.mk.injEq, true_and, and_true] at hsame
  obtain ⟨rfl, hdata⟩ := hsame
  refine ⟨by simpa using hdata, ?_⟩
  have hbehind : rest = behind :=
    Bits.flatMap_ofByte_injective (hleft.toList_eq.symm.trans hleft'.toList_eq)
  rw [hbehind] at hbytes
  exact List.append_cancel_right hbytes

/-- A stream that is cut short is refused, however much room there is. -/
theorem decompress_take_of_isStreamOf (hstream : IsStreamOf data stream) {cut : ℕ}
    (hcut : cut < stream.length) (room : ℕ) :
    ∃ trouble, decompress room (stream.take cut) = .error trouble := by
  cases hresult : decompress room (stream.take cut) with
  | error trouble => exact ⟨trouble, rfl⟩
  | ok restored =>
      obtain ⟨-, front, rest, htake, hfront⟩ := decompress_eq_ok_iff.mp hresult
      have hbytes : stream ++ [] = front ++ (rest ++ stream.drop cut) := by
        rw [List.append_nil, ← List.append_assoc, ← htake, List.take_append_drop]
      obtain ⟨-, rfl⟩ := hstream.unique hfront hbytes
      have hlength := congrArg List.length htake
      rw [List.length_take, List.length_append] at hlength
      omega

end PackedTopology.Zlib
