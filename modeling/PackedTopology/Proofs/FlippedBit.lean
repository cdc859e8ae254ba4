import Mathlib.Data.LawfulXor.Basic
import PackedTopology.Proofs.Reencoding

/-!
# Damage to a single bit

Turning over one bit of the packed words adds or takes away one power of two
of the number that they stand for, and the fields are the digits of this number
in another base.  So the damage stays in the one field that the bit lies in, on
whichever side of a word's edge, and a bit behind the last field does no harm.
-/

namespace PackedTopology

variable {width bit : ℕ}

/-- Turns over one bit, counted from the lowest one of the byte at `place`. -/
def flipBit (place bit : ℕ) (bytes : List UInt8) : List UInt8 :=
  bytes.modify (place + bit / 8) fun byte => byte ^^^ UInt8.ofNat (2 ^ (bit % 8))

@[simp] theorem length_flipBit (place bit : ℕ) (bytes : List UInt8) :
    (flipBit place bit bytes).length = bytes.length :=
  List.length_modify ..

/-- What stands in front of the place is not touched. -/
theorem flipBit_append (front bytes : List UInt8) (bit : ℕ) :
    flipBit front.length bit (front ++ bytes) =
      front ++ flipBit 0 bit bytes := by
  induction front with
  | nil => rfl
  | cons byte front ih =>
      rw [flipBit, List.length_cons, Nat.add_right_comm, List.cons_append,
        List.modify_succ_cons, ← flipBit, ih, List.cons_append]

theorem drop_flipBit {count : ℕ} (hbit : bit < 8 * count) (bytes : List UInt8) :
    (flipBit 0 bit bytes).drop count = bytes.drop count := by
  rw [flipBit, Nat.zero_add]
  exact List.drop_modify_of_lt _ _ _ _ (Nat.div_lt_of_lt_mul hbit)

/-! ## One digit of a number -/

/-- Turning over a bit of the last digit leaves the others as they are. -/
theorem xor_two_pow_of_lt (number : ℕ) (hbit : bit < width) :
    (number ^^^ 2 ^ bit) % 2 ^ width = number % 2 ^ width ^^^ 2 ^ bit ∧
      (number ^^^ 2 ^ bit) / 2 ^ width = number / 2 ^ width := by
  have hsmall : 2 ^ bit < 2 ^ width := Nat.pow_lt_pow_right (by decide) hbit
  constructor
  · rw [Nat.xor_mod_two_pow, Nat.mod_eq_of_lt hsmall]
  · rw [Nat.xor_div_two_pow, Nat.div_eq_of_lt hsmall, Nat.xor_zero]

/-- Turning over a bit of the other digits leaves the last one as it is. -/
theorem xor_two_pow_add (number width above : ℕ) :
    (number ^^^ 2 ^ (width + above)) % 2 ^ width = number % 2 ^ width ∧
      (number ^^^ 2 ^ (width + above)) / 2 ^ width =
        number / 2 ^ width ^^^ 2 ^ above := by
  constructor
  · rw [Nat.xor_mod_two_pow, pow_add, Nat.mul_mod_right, Nat.xor_zero]
  · rw [Nat.xor_div_two_pow, pow_add,
      Nat.mul_div_cancel_left _ (Nat.two_pow_pos width)]

namespace LittleEndian

theorem octets_succ (size number : ℕ) :
    octets (size + 1) number =
      UInt8.ofNat (number % 2 ^ 8) :: octets size (number / 2 ^ 8) := by
  rw [octets, List.cons.injEq]
  exact ⟨UInt8.toNat_inj.mp (by simp), rfl⟩

theorem octets_xor_two_pow (size number bit : ℕ) :
    octets size (number ^^^ 2 ^ bit) =
      (octets size number).modify (bit / 8) fun byte =>
        byte ^^^ UInt8.ofNat (2 ^ (bit % 8)) := by
  induction size generalizing number bit with
  | zero => simp [octets]
  | succ size ih =>
      rw [octets_succ, octets_succ]
      by_cases hbit : bit < 8
      · obtain ⟨hlast, hothers⟩ := xor_two_pow_of_lt number hbit
        rw [hlast, hothers, Nat.div_eq_of_lt hbit, Nat.mod_eq_of_lt hbit,
          List.modify_zero_cons, UInt8.ofNat_xor]
      · obtain ⟨above, rfl⟩ := Nat.exists_eq_add_of_le (Nat.le_of_not_lt hbit)
        obtain ⟨hlast, hothers⟩ := xor_two_pow_add number 8 above
        rw [hlast, hothers, ih, Nat.add_div_left above (by decide),
          Nat.add_mod_left, List.modify_succ_cons]

theorem number_flipBit {bytes : List UInt8} (hbit : bit < 8 * bytes.length) :
    number (flipBit 0 bit bytes) = number bytes ^^^ 2 ^ bit := by
  have hnumber : number bytes < 2 ^ (bytes.length * 8) := by
    rw [← bound_eq_two_pow]
    exact number_lt bytes
  have hflipped : number bytes ^^^ 2 ^ bit < 2 ^ (bytes.length * 8) :=
    Nat.xor_lt_two_pow hnumber (Nat.pow_lt_pow_right (by decide) (by omega))
  have hoctets := octets_xor_two_pow bytes.length (number bytes) bit
  rw [octets_number] at hoctets
  rw [flipBit, Nat.zero_add, ← hoctets, number_octets, bound_eq_two_pow,
    Nat.mod_eq_of_lt hflipped]

end LittleEndian

namespace Segmentation

/-- Turning over a bit of a number changes the field that the bit lies in, if
there is one, and no other. -/
theorem fieldsOf_xor_two_pow (hpos : 0 < width) (count number bit : ℕ) :
    fieldsOf width count (number ^^^ 2 ^ bit) =
      (fieldsOf width count number).modify (bit / width) fun field =>
        field ^^^ UInt32.ofNat (2 ^ (bit % width)) := by
  induction count generalizing number bit with
  | zero => simp [fieldsOf]
  | succ count ih =>
      rw [fieldsOf, fieldsOf]
      by_cases hbit : bit < width
      · obtain ⟨hlast, hothers⟩ := xor_two_pow_of_lt number hbit
        rw [hlast, hothers, Nat.div_eq_of_lt hbit, Nat.mod_eq_of_lt hbit,
          List.modify_zero_cons, UInt32.ofNat_xor]
      · obtain ⟨above, rfl⟩ := Nat.exists_eq_add_of_le (Nat.le_of_not_lt hbit)
        obtain ⟨hlast, hothers⟩ := xor_two_pow_add number width above
        rw [hlast, hothers, ih, Nat.add_div_left _ hpos, Nat.add_mod_left,
          List.modify_succ_cons]

/-! ## Records that are accepted -/

section

variable {limit : Option ℕ} {header : Header}

theorem step_read_of_header (hlimit : withinLimit limit header.vertices.toNat = .ok ())
    (hwidth : fieldWidth header.segments.toNat = .ok width) {rest : List UInt8}
    (henough : 4 * wordCount header.vertices.toNat width ≤ rest.length) :
    (read limit).step (.ofList (storedHeader header ++ rest)) =
      (.ok ⟨header,
          fieldsOf width header.vertices.toNat (LittleEndian.number rest),
          Header.size + 4 * wordCount header.vertices.toNat width⟩,
        .holding (rest.drop (4 * wordCount header.vertices.toNat width))
          (Header.size + 4 * wordCount header.vertices.toNat width)) := by
  rw [read_eq, Reader.ofList_eq_holding,
    Action.step_bind_of_ok (consumes_header header rest 0), hlimit,
    Action.check_ok_bind, step_readBody_holding _ _ hwidth, if_pos henough,
    length_storedHeader, Nat.zero_add]
  rfl

/-- A record is accepted only if its header is within the limit, its segments
have a width and the words of all its fields are there. -/
theorem exists_rest_of_read {bytes : List UInt8} {record : Record}
    {after : Reader}
    (hread : (read limit).step (.ofList bytes) = (.ok record, after)) :
    ∃ header width rest, bytes = storedHeader header ++ rest ∧
      withinLimit limit header.vertices.toNat = .ok () ∧
      fieldWidth header.segments.toNat = .ok width ∧
      4 * wordCount header.vertices.toNat width ≤ rest.length ∧
      record = ⟨header,
        fieldsOf width header.vertices.toNat (LittleEndian.number rest),
        Header.size + 4 * wordCount header.vertices.toNat width⟩ ∧
      after = .holding (rest.drop (4 * wordCount header.vertices.toNat width))
        (Header.size + 4 * wordCount header.vertices.toNat width) := by
  obtain ⟨width, payload, more, hcut, hbytes, -, -⟩ :=
    exists_payload_of_read hread
  rw [List.append_assoc] at hbytes
  have hlimit : withinLimit limit record.header.vertices.toNat = .ok () := by
    cases hlimit : withinLimit limit record.header.vertices.toNat with
    | ok _ => rfl
    | error fault =>
        rw [hbytes, read_eq, Reader.ofList_eq_holding,
          Action.step_bind_of_ok (consumes_header _ _ 0), hlimit] at hread
        cases hread
  have henough : 4 * wordCount record.header.vertices.toNat width ≤
      (storedWords payload ++ more).length := by
    rw [List.length_append, length_storedWords, hcut.length_eq]
    exact Nat.le_add_right _ _
  have hstep := step_read_of_header hlimit hcut.width_eq henough
  rw [← hbytes, hread] at hstep
  obtain ⟨hrecord, hafter⟩ := Prod.mk.inj hstep
  exact ⟨record.header, width, _, hbytes, hlimit, hcut.width_eq, henough,
    Except.ok.inj hrecord, hafter⟩

end

/-- A field with one of its bits turned over is another one, by one power of
two. -/
theorem exists_set_of_modify_xor {ids : List UInt32} {place : ℕ}
    (hplace : place < ids.length) (hbit : bit < 32) :
    ∃ old new, ids[place]? = some old ∧ new.toNat = old.toNat ^^^ 2 ^ bit ∧
      new ≠ old ∧
      (ids.modify place fun id => id ^^^ UInt32.ofNat (2 ^ bit)) =
        ids.set place new := by
  have hold : ids[place]? = some ids[place] := List.getElem?_eq_getElem hplace
  have hmask : (UInt32.ofNat (2 ^ bit)).toNat = 2 ^ bit :=
    UInt32.toNat_ofNat_of_lt' (Nat.pow_lt_pow_right (by decide) hbit)
  have hnew : (ids[place] ^^^ UInt32.ofNat (2 ^ bit)).toNat =
      ids[place].toNat ^^^ 2 ^ bit := by
    rw [UInt32.toNat_xor, hmask]
  refine ⟨_, _, hold, hnew, ?_, ?_⟩
  · intro hsame
    rw [hsame] at hnew
    exact (Nat.two_pow_pos bit).ne' (xor_left_eq_self_iff.mp hnew.symm)
  · rw [List.modify_eq_set_getElem?, hold]
    rfl

/-- Turning over a bit of the packed words of a record that is accepted leaves
it accepted, with the same header and the same size, and the same bytes behind
it.  If the bit lies in a field, just the id of this field is another one, by
one power of two; if it lies behind the last field, no id is. -/
theorem flipped_bit_stays_local {limit : Option ℕ} {bytes : List UInt8}
    {record : Record} {after : Reader}
    (hread : (read limit).step (.ofList bytes) = (.ok record, after)) :
    ∃ width words,
      record.header.width = .ok width ∧ record.header.words = .ok words ∧
      ∀ bit < 32 * words, ∃ damaged,
        (read limit).step (.ofList (flipBit Header.size bit bytes)) =
            (.ok damaged, after) ∧
          damaged.header = record.header ∧
          damaged.size = record.size ∧
          (bit < record.header.vertices.toNat * width →
            ∃ old new, record.ids[bit / width]? = some old ∧
              new.toNat = old.toNat ^^^ 2 ^ (bit % width) ∧ new ≠ old ∧
              damaged.ids = record.ids.set (bit / width) new) ∧
          (record.header.vertices.toNat * width ≤ bit →
            damaged.ids = record.ids) := by
  obtain ⟨header, width, rest, rfl, hlimit, hwidth, henough, rfl, rfl⟩ :=
    exists_rest_of_read hread
  have hpos := fieldWidth_pos hwidth
  have hwords : header.words = .ok (wordCount header.vertices.toNat width) := by
    rw [Header.words, Header.width, hwidth]
    rfl
  refine ⟨width, _, hwidth, hwords, ?_⟩
  intro bit hbit
  have htaken : bit < 8 * (4 * wordCount header.vertices.toNat width) := by
    omega
  have hflip : flipBit Header.size bit (storedHeader header ++ rest) =
      storedHeader header ++ flipBit 0 bit rest := by
    rw [← length_storedHeader header, flipBit_append]
  have hdamaged := step_read_of_header hlimit hwidth
    (henough.trans_eq (length_flipBit 0 bit rest).symm)
  rw [← hflip, drop_flipBit htaken, LittleEndian.number_flipBit (by omega),
    fieldsOf_xor_two_pow hpos] at hdamaged
  refine ⟨_, hdamaged, rfl, rfl, ?_, ?_⟩
  · intro hfield
    apply exists_set_of_modify_xor
    · rw [length_fieldsOf]
      exact Nat.div_lt_of_lt_mul (by rwa [Nat.mul_comm])
    · exact (Nat.mod_lt bit hpos).trans_le (fieldWidth_le hwidth)
  · intro hpadding
    apply List.modify_eq_self
    rw [length_fieldsOf]
    exact (Nat.le_div_iff_mul_le hpos).mpr hpadding

/-- The last of eleven fields of three bits has its highest bit in the second
word.  Turning over this bit, or the next one, which is no field's. -/
theorem flipped_bit_stays_local_straddling :
    let bytes : List UInt8 := [11, 0, 0, 0, 7, 0, 0, 0, 0, 0, 0, 128, 1, 0, 0, 0]
    let ids : List UInt32 := [0, 0, 0, 0, 0, 0, 0, 0, 0, 0]
    (read none).step (.ofList bytes) =
        (.ok ⟨⟨11, 7⟩, ids ++ [6], 16⟩, .holding [] 16) ∧
      (read none).step (.ofList (flipBit 8 32 bytes)) =
        (.ok ⟨⟨11, 7⟩, ids ++ [2], 16⟩, .holding [] 16) ∧
      (read none).step (.ofList (flipBit 8 33 bytes)) =
        (.ok ⟨⟨11, 7⟩, ids ++ [6], 16⟩, .holding [] 16) := by
  intro bytes ids
  have hread : (read none).step (.ofList bytes) =
      (.ok ⟨⟨11, 7⟩, ids ++ [6], 16⟩, .holding [] 16) := by with_unfolding_all rfl
  obtain ⟨width, words, hwidth, hwords, hflip⟩ := flipped_bit_stays_local hread
  have hthree : Header.width ⟨11, 7⟩ = .ok 3 := by with_unfolding_all rfl
  have htwo : Header.words ⟨11, 7⟩ = .ok 2 := by with_unfolding_all rfl
  obtain rfl : 3 = width := Except.ok.inj (hthree.symm.trans hwidth)
  obtain rfl : 2 = words := Except.ok.inj (htwo.symm.trans hwords)
  refine ⟨hread, ?_, ?_⟩
  · obtain ⟨⟨header, changed, size⟩, hdamaged, rfl, rfl, hfield, -⟩ :=
      hflip 32 (by decide)
    obtain ⟨old, new, hold, hnew, -, hids⟩ := hfield (by decide)
    obtain rfl : 6 = old := Option.some.inj hold
    obtain rfl : 2 = new := UInt32.toNat_inj.mp hnew.symm
    obtain rfl := hids
    exact hdamaged
  · obtain ⟨⟨header, same, size⟩, hdamaged, rfl, rfl, -, hpadding⟩ :=
      hflip 33 (by decide)
    obtain rfl := hpadding (by decide)
    exact hdamaged

end Segmentation

end PackedTopology
