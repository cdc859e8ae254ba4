import PackedTopology.Proofs.StreamDecoding
import PackedTopology.Zlib.Buffer

/-!
# Round trip through buffers

A compressor may choose any stream of the data that is no longer than a known
bound.  Then a buffer of that bound takes the stream, and the data come back
from it into every buffer that has room for them and into no smaller one, even
if other bytes follow.  Bytes that do not begin with a whole stream are never
taken for data.  Compression in plain blocks is such a compressor.
-/

namespace PackedTopology.Zlib

/-! ## Plain blocks -/

theorem lowBits_mod (count value : ℕ) :
    lowBits count (value % 2 ^ count) = lowBits count value := by
  apply List.map_congr_left
  intro place hplace
  rw [Nat.testBit_mod_two_pow, decide_eq_true (List.mem_range.mp hplace),
    Bool.true_and]

theorem lowBits_add (low high value : ℕ) :
    lowBits (low + high) value = lowBits low value ++ lowBits high (value / 2 ^ low) := by
  rw [lowBits, List.range_add, List.map_append, List.map_map]
  congr 1
  apply List.map_congr_left
  intro place _
  rw [Function.comp_apply, Nat.testBit_div_two_pow, Nat.add_comm]

theorem flatMap_countBytes (count : ℕ) :
    (countBytes count).flatMap Bits.ofByte = lowBits 16 count := by
  have hlow : Bits.ofByte (UInt8.ofNat count) = lowBits 8 count := by
    rw [← lowBits_mod, ← UInt8.toNat_ofNat']
    rfl
  have hhigh : Bits.ofByte (UInt8.ofNat (count / 256)) = lowBits 8 (count / 2 ^ 8) := by
    rw [← lowBits_mod, ← UInt8.toNat_ofNat']
    rfl
  rw [lowBits_add 8 8, ← hlow, ← hhigh]
  simp [countBytes]

theorem flatMap_plainBlockBytes (last : Bool) (bytes : List UInt8) :
    (plainBlockBytes last bytes).flatMap Bits.ofByte =
      last :: (lowBits 2 0 ++ List.replicate 5 false ++ lowBits 16 bytes.length ++
        lowBits 16 (blockLimit - bytes.length) ++ bytes.flatMap Bits.ofByte) := by
  have hmark : Bits.ofByte (UInt8.ofNat last.toNat) =
      last :: (lowBits 2 0 ++ List.replicate 5 false) := by
    cases last <;> decide
  rw [plainBlockBytes, List.cons_append, List.cons_append, List.flatMap_cons,
    List.flatMap_append, List.flatMap_append, flatMap_countBytes,
    flatMap_countBytes, hmark]
  simp only [List.cons_append, List.append_assoc]

theorem block_of_plain {position : ℕ} (hborder : position % 8 = 0)
    (output : List UInt8) {bytes : List UInt8} (hbytes : bytes.length ≤ blockLimit) :
    Block (position + 1) output
      (lowBits 2 0 ++ List.replicate 5 false ++ lowBits 16 bytes.length ++
        lowBits 16 (blockLimit - bytes.length) ++ bytes.flatMap Bits.ofByte)
      (output ++ bytes) :=
  .plain (by decide) (by rw [List.length_replicate]; omega) hbytes

theorem blocks_of_plain (bytes : List UInt8) {position : ℕ}
    (hborder : position % 8 = 0) (output : List UInt8) :
    Blocks position output ((plainBlocks bytes).flatMap Bits.ofByte)
      (output ++ bytes) := by
  -- Each block is a number of whole bytes, so the next one starts at a border.
  induction bytes using plainBlocks.induct generalizing position output with
  | case1 bytes hlong _ ih =>
      have htake : (bytes.take blockLimit).length ≤ blockLimit :=
        List.length_take_le _ _
      have hbytes : output ++ bytes =
          output ++ bytes.take blockLimit ++ bytes.drop blockLimit := by
        rw [List.append_assoc, List.take_append_drop]
      rw [plainBlocks, dif_pos hlong, List.flatMap_append,
        flatMap_plainBlockBytes, hbytes]
      refine .more (block_of_plain hborder output htake) (ih ?_ _)
      simp only [List.length_append, List.length_replicate, lowBits,
        List.length_map, List.length_range, Bits.length_flatMap_ofByte]
      omega
  | case2 bytes hshort =>
      rw [plainBlocks, dif_neg hshort, flatMap_plainBlockBytes]
      exact .last (block_of_plain hborder output (Nat.le_of_not_lt hshort))

theorem isStreamOf_compress (data : List UInt8) : IsStreamOf data (compress data) := by
  refine ⟨0x78, 0x01, plainBlocks data,
    (plainBlocks data).flatMap Bits.ofByte, [], rfl, by decide, ?_, by decide, ?_⟩
  · rw [List.append_nil]
  · exact blocks_of_plain data (by decide) []

/-- A plain block takes five bytes more than it holds. -/
theorem length_plainBlocks_le (bytes : List UInt8) :
    (plainBlocks bytes).length ≤ bytes.length + 5 * (bytes.length / 65535 + 1) := by
  have hlimit : blockLimit = 65535 := rfl
  have hlength : ∀ (last : Bool) (bytes : List UInt8),
      (plainBlockBytes last bytes).length = bytes.length + 5 := by
    intro last bytes
    simp [plainBlockBytes, countBytes]
  induction bytes using plainBlocks.induct with
  | case1 bytes hlong _ ih =>
      rw [plainBlocks, dif_pos hlong, List.length_append, hlength, List.length_take]
      rw [List.length_drop] at ih
      rw [hlimit] at hlong ih ⊢
      omega
  | case2 bytes hshort =>
      rw [plainBlocks, dif_neg hshort, hlength]
      omega

/-! ## Compressors -/

/-- The length that no stream of a compressor exceeds. -/
def longestStream (length : ℕ) : ℕ :=
  length + length / 2 ^ 12 + length / 2 ^ 14 + length / 2 ^ 25 + 13

theorem bound_eq_longestStream (length : ℕ) : bound length = longestStream length := by
  simp only [bound, longestStream, Nat.shiftRight_eq_div_pow]

/-- Whatever a compressor chooses at a level, it is one whole stream of the data
that keeps to the bound on its length. -/
structure Compresses (choose : ℕ → List UInt8 → List UInt8) : Prop where
  isStreamOf : ∀ level data, level ≤ 9 → IsStreamOf data (choose level data)
  length_le : ∀ level data, level ≤ 9 →
    (choose level data).length ≤ longestStream data.length

theorem compresses_plain : Compresses fun _ => compress where
  isStreamOf _ data _ := isStreamOf_compress data
  length_le _ data _ := by
    have hblocks := length_plainBlocks_le data
    simp only [compress, bigEndian, List.length_append, List.length_cons,
      List.length_nil, longestStream]
    omega

/-! ## Buffers -/

theorem decompressInto_of_isStreamOf {data stream : List UInt8}
    (hstream : IsStreamOf data stream) (rest : List UInt8) (room : ℕ) :
    (data.length ≤ room → decompressInto room (stream ++ rest) = .ok data) ∧
      (room < data.length →
        decompressInto room (stream ++ rest) =
          .error (.backend .deflate
            s!"stream did not end within {room} output bytes")) := by
  obtain ⟨hfits, hfull⟩ := decompress_of_isStreamOf hstream rest room
  refine ⟨fun hroom => ?_, fun hroom => ?_⟩
  · rw [decompressInto, hfits hroom]
  · rw [decompressInto, hfull hroom]
    rfl

/-- A buffer takes what a whole stream in front restores, and nothing else. -/
theorem isStreamOf_of_decompressInto {bytes restored : List UInt8} {room : ℕ}
    (hrestored : decompressInto room bytes = .ok restored) :
    restored.length ≤ room ∧
      ∃ stream rest, bytes = stream ++ rest ∧ IsStreamOf restored stream := by
  apply decompress_eq_ok_iff.mp
  rw [decompressInto] at hrestored
  cases hresult : decompress room bytes with
  | error trouble =>
      rw [hresult] at hrestored
      cases hrestored
  | ok data =>
      rw [hresult] at hrestored
      obtain rfl := Except.ok.inj hrestored
      rfl

/-- At every level there is, data are compressed into a buffer of the bound on
their length.  The stream, whatever bytes follow it, is restored to exactly the
data in a buffer that has room for them, and is refused in every smaller one.
Levels that there are not are refused, and bytes of any kind are restored only
if a whole stream of the result stands in front. -/
theorem buffers_restore_data {choose : ℕ → List UInt8 → List UInt8}
    (hchoose : Compresses choose) :
    (∀ data level, level ≤ 9 →
      ∃ stream,
        compressIntoBy choose (bound data.length) data level = .ok stream ∧
          ∀ rest room,
            (data.length ≤ room →
              decompressInto room (stream ++ rest) = .ok data) ∧
            (room < data.length →
              decompressInto room (stream ++ rest) =
                .error (.backend .deflate
                  s!"stream did not end within {room} output bytes"))) ∧
    (∀ data level room, 9 < level →
      compressIntoBy choose room data level =
        .error (.backend .deflate
          s!"compression level {level} out of range")) ∧
    ∀ bytes room restored, decompressInto room bytes = .ok restored →
      restored.length ≤ room ∧
        ∃ stream rest, bytes = stream ++ rest ∧ IsStreamOf restored stream := by
  refine ⟨fun data level hlevel => ⟨choose level data, ?_, ?_⟩, ?_, ?_⟩
  · have hknown : ¬highestLevel < level := Nat.not_lt_of_le hlevel
    have hlength := hchoose.length_le level data hlevel
    rw [← bound_eq_longestStream] at hlength
    rw [compressIntoBy, if_neg hknown]
    exact if_neg (Nat.not_lt_of_le hlength)
  · exact decompressInto_of_isStreamOf (hchoose.isStreamOf level data hlevel)
  · intro data level room hlevel
    exact if_pos hlevel
  · intro bytes room restored hrestored
    exact isStreamOf_of_decompressInto hrestored

/-- Three bytes in a plain block, with a byte behind the stream, in a buffer for
three bytes and in one for two. -/
theorem buffers_restore_data_plain :
    Compresses (fun _ => compress) ∧
      (∃ stream, compressInto (bound 3) [7, 7, 9] 0 = .ok stream ∧
        decompressInto 3 (stream ++ [1]) = .ok [7, 7, 9] ∧
        decompressInto 2 (stream ++ [1]) =
          .error (.backend .deflate
            s!"stream did not end within {2} output bytes")) ∧
      compressInto 100 [7, 7, 9] 10 =
        .error (.backend .deflate s!"compression level {10} out of range") := by
  obtain ⟨hlevels, hrefused, -⟩ := buffers_restore_data compresses_plain
  obtain ⟨stream, hstream, hrooms⟩ := hlevels [7, 7, 9] 0 (by decide)
  exact ⟨compresses_plain,
    ⟨stream, hstream, (hrooms [1] 3).1 (by decide), (hrooms [1] 2).2 (by decide)⟩,
    hrefused [7, 7, 9] 10 100 (by decide)⟩

end PackedTopology.Zlib
