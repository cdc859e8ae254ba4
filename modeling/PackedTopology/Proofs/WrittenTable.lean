import Mathlib.Data.Int.Notation
import Mathlib.Data.List.Basic
import Mathlib.Data.List.Induction
import PackedTopology.Proofs.Digits
import PackedTopology.Table.Reader
import PackedTopology.Table.Writer

/-!
# Tables that were written

A table is written in lines of cells that need no quotes.  Its records are these
lines, cell by cell, and nothing else.  The cells of a table of ids are decimal
numbers, which are read as the ids again; the line of names in front of them is
passed over if the settings ask for names.
-/

namespace PackedTopology

/-! ## Plain text -/

namespace Text

theorem trim_of_forall {α : Type} {holds : α → Bool} {elements : List α}
    (hnone : ∀ element ∈ elements, holds element = false) :
    trim holds elements = elements := by
  have hkeep : ∀ kept : List α, (∀ element ∈ kept, holds element = false) →
      kept.dropWhile holds = kept := by
    intro kept hkept
    cases kept with
    | nil => rfl
    | cons element kept =>
        exact List.dropWhile_cons_of_neg (by simp [hkept element])
  rw [trim, hkeep elements hnone, hkeep elements.reverse (by simpa using hnone),
    List.reverse_reverse]

theorem toNat_toUInt8 {c : Char} (hascii : c.toNat < 128) :
    c.toUInt8.toNat = c.toNat := by
  have hbyte : c.toUInt8.toNat = c.toNat % 256 := UInt32.toNat_toUInt8 c.val
  omega

theorem utf8EncodeChar_of_ascii {c : Char} (hascii : c.toNat < 128) :
    String.utf8EncodeChar c = [c.toUInt8] :=
  if_pos (Nat.le_of_lt_succ hascii)

theorem encode_of_ascii {text : List Char}
    (hascii : ∀ c ∈ text, c.toNat < 128) :
    text.flatMap String.utf8EncodeChar = text.map Char.toUInt8 := by
  induction text with
  | nil => rfl
  | cons c text ih =>
      rw [List.flatMap_cons, List.map_cons,
        utf8EncodeChar_of_ascii (hascii c List.mem_cons_self),
        ih fun d hd => hascii d (List.mem_cons_of_mem c hd), List.singleton_append]

theorem character?_toUInt8 {c : Char} (hascii : c.toNat < 128)
    (bytes : List UInt8) :
    character? c.toUInt8 bytes = some (c, 0) := by
  have hleading : leadingByte c.toUInt8 = some (0, c.toNat, 0) := by
    rw [leadingByte, toNat_toUInt8 hascii]
    exact if_pos hascii
  have hvalid : c.toNat.isValidChar ∧ 0 ≤ c.toNat := ⟨c.valid, Nat.zero_le _⟩
  rw [character?, hleading]
  simp only [continuation]
  rw [if_pos hvalid, Char.ofNat_toNat]

theorem decode_of_ascii {text : List Char}
    (hascii : ∀ c ∈ text, c.toNat < 128) :
    decode (text.map Char.toUInt8) = .ok text := by
  have hafter : ∀ (got : Array Char) (before : ℕ),
      decodeAfter got before (text.map Char.toUInt8) = .ok (got.toList ++ text) := by
    induction text with
    | nil =>
        intro got before
        rw [List.map_nil, decodeAfter, List.append_nil]
    | cons c text ih =>
        intro got before
        have hfirst := character?_toUInt8 (hascii c List.mem_cons_self)
          (text.map Char.toUInt8)
        rw [List.map_cons, decodeAfter, hfirst]
        simp only [List.drop_zero]
        rw [ih fun d hd => hascii d (List.mem_cons_of_mem c hd),
          Array.toList_push, List.append_assoc, List.singleton_append]
  exact hafter #[] 0

end Text

namespace Table

/-! ## Decimal cells -/

/-- A natural number on one side of zero. -/
def signed (minus : Bool) (number : ℕ) : ℤ :=
  if minus then -number else number

/-- A range that has a number on one side of zero, and all numbers on the way to
it. -/
structure IntegerRange.Covers (range : IntegerRange) (minus : Bool) (number : ℕ) :
    Prop where
  least_le : range.least ≤ 0
  le_most : 0 ≤ range.most
  least_le_signed : range.least ≤ signed minus number
  signed_le_most : signed minus number ≤ range.most

theorem IntegerRange.Covers.mono {range : IntegerRange} {minus : Bool}
    {less more : ℕ} (hcovers : range.Covers minus more) (hle : less ≤ more) :
    range.Covers minus less := by
  obtain ⟨hleast, hmost, hlow, hhigh⟩ := hcovers
  refine ⟨hleast, hmost, ?_, ?_⟩ <;> cases minus <;> simp [signed] at * <;> omega

theorem addDigit_eq {range : IntegerRange} {minus : Bool} {c : Char}
    (hdigit : c.isDigit = true) {number : ℕ}
    (hcovers : range.Covers minus (10 * number + (c.toNat - '0'.toNat))) :
    addDigit range 10 minus (signed minus number) c =
      .ok (signed minus (10 * number + (c.toNat - '0'.toNat))) := by
  have hnext : signed minus number * (10 : ℕ) +
      (if minus then -((c.toNat - '0'.toNat : ℕ) : ℤ)
        else (c.toNat - '0'.toNat : ℕ)) =
        signed minus (10 * number + (c.toNat - '0'.toNat)) := by
    cases minus <;> simp only [signed, Bool.false_eq_true, if_false, if_true] <;>
      push_cast <;> omega
  rw [addDigit, Text.digitIn_of_isDigit hdigit]
  simp only [hnext]
  rw [if_neg (Int.not_lt.mpr hcovers.least_le_signed),
    if_neg (Int.not_lt.mpr hcovers.signed_le_most)]

theorem foldlM_addDigit {range : IntegerRange} {minus : Bool} {digits : List Char}
    (hdigits : Text.AreDigits digits) {number : ℕ}
    (hcovers : range.Covers minus (Nat.ofDigitChars 10 digits number)) :
    digits.foldlM (addDigit range 10 minus) (signed minus number) =
      .ok (signed minus (Nat.ofDigitChars 10 digits number)) := by
  induction digits generalizing number with
  | nil => rfl
  | cons c digits ih =>
      rw [Nat.ofDigitChars_cons] at hcovers ⊢
      rw [List.foldlM_cons, addDigit_eq (hdigits c List.mem_cons_self)
        (hcovers.mono (Text.le_ofDigitChars _ _))]
      exact ih (fun d hd => hdigits d (List.mem_cons_of_mem c hd)) hcovers

theorem signedDigits_of_digits (range : IntegerRange) (base : ℕ) {c : Char}
    (digits : List Char) (hdigit : c.isDigit = true) :
    signedDigits range base (c :: digits) =
      (c :: digits).foldlM (addDigit range base false) 0 := by
  have hrange := Text.toNat_of_isDigit hdigit
  have hplus : c ≠ '+' := by
    rintro rfl
    exact absurd hdigit (by decide)
  have hminus : c ≠ '-' := by
    rintro rfl
    exact absurd hdigit (by decide)
  unfold signedDigits
  split <;> simp_all

theorem foldlM_toDigits {range : IntegerRange} {minus : Bool} {number : ℕ}
    (hcovers : range.Covers minus number) :
    (Nat.toDigits 10 number).foldlM (addDigit range 10 minus) 0 =
      .ok (signed minus number) := by
  have hdigits := Text.areDigits_toDigits number
  have hnumber : Nat.ofDigitChars 10 (Nat.toDigits 10 number) 0 = number :=
    Nat.ofDigitChars_ten_toDigits
  have hzero : signed minus 0 = 0 := by cases minus <;> rfl
  have hfold := @foldlM_addDigit range minus _ hdigits 0 (by rwa [hnumber])
  rwa [hnumber, hzero] at hfold

theorem integerCell_toDigits {range : IntegerRange} {number : ℕ}
    (hcovers : range.Covers false number) :
    integerCell range (Nat.toDigits 10 number) = .ok (number : ℤ) := by
  have hdigits := Text.areDigits_toDigits number
  have hfold := foldlM_toDigits hcovers
  cases htext : Nat.toDigits 10 number with
  | nil => exact absurd htext Nat.toDigits_ne_nil
  | cons c digits =>
      rw [htext] at hdigits hfold
      have hsigned := signedDigits_of_digits range 10 digits
        (hdigits c List.mem_cons_self)
      -- No decimal number goes on with the mark of hexadecimal ones.
      have hmark : ∀ more, digits ≠ 'x' :: more := by
        rintro more rfl
        exact absurd (hdigits 'x' (by simp)) (by decide)
      unfold integerCell
      split
      · simp_all
      · rw [hsigned]
        exact hfold

theorem integerCell_minus_toDigits {range : IntegerRange} {number : ℕ}
    (hnegative : range.least < 0) (hcovers : range.Covers true number) :
    integerCell range ('-' :: Nat.toDigits 10 number) = .ok (-number : ℤ) := by
  have hfold := foldlM_toDigits hcovers
  cases htext : Nat.toDigits 10 number with
  | nil => exact absurd htext Nat.toDigits_ne_nil
  | cons c digits =>
      rw [htext] at hfold
      rw [integerCell, signedDigits, if_pos hnegative]
      · exact hfold
      · simp
      · simp

/-! ## Lines of cells -/

/-- A byte that is written without quotes and belongs to no longer character. -/
structure Plain (byte : UInt8) : Prop where
  ascii : byte.toNat < 128
  ne_comma : byte ≠ ','.toUInt8
  ne_quote : byte ≠ '"'.toUInt8
  not_end : Scanner.endsLine byte = false

/-- The bytes of a line with these cells. -/
def lineOf (cells : List (List UInt8)) : List UInt8 :=
  [','.toUInt8].intercalate cells ++ ['\n'.toUInt8]

/-- Cells that can be told from their line: they need no quotes, and they do not
leave it empty. -/
structure Tellable (cells : List (List UInt8)) : Prop where
  plain : ∀ cell ∈ cells, ∀ byte ∈ cell, Plain byte
  ne_nil : cells ≠ []
  ne_empty : cells ≠ [[]]

namespace Scanner

/-- What a scanner outside quotes has found: whole records, cells of the record
at hand, and the front of the next cell. -/
structure Shows (scanner : Scanner) (records : List (List (List UInt8)))
    (cells : List (List UInt8)) (front : List UInt8) : Prop where
  mode_eq : scanner.mode = .between ∨ scanner.mode = .fieldStart ∨
    scanner.mode = .inField
  records_eq : scanner.records.toList.map Record.fields = records
  cells_eq : scanner.fields.toList = cells
  front_eq : scanner.field.reverse = front

variable {scanner : Scanner} {records : List (List (List UInt8))}
  {cells : List (List UInt8)} {front : List UInt8}

theorem shows_start (skipped : ℕ) : (start skipped).Shows [] [] [] :=
  ⟨.inl rfl, rfl, rfl, rfl⟩

namespace Shows

theorem step_of_plain (hshows : scanner.Shows records cells front)
    {byte : UInt8} (hbyte : Plain byte) :
    (scanner.step byte).Shows records cells (front ++ [byte]) ∧
      (scanner.step byte).mode = .inField := by
  obtain ⟨-, hcomma, hquote, hend⟩ := hbyte
  have hstep : scanner.step byte = (scanner.count byte).keep .inField byte := by
    rcases hshows.mode_eq with hmode | hmode | hmode <;>
      simp [step, hmode, hend, first, hquote, plain, hcomma]
  rw [hstep]
  refine ⟨⟨.inr (.inr rfl), hshows.records_eq, hshows.cells_eq, ?_⟩, rfl⟩
  rw [← hshows.front_eq]
  exact List.reverse_cons

theorem step_comma (hshows : scanner.Shows records cells front) :
    (scanner.step ','.toUInt8).Shows records (cells ++ [front]) [] ∧
      (scanner.step ','.toUInt8).mode = .fieldStart := by
  have hstep : scanner.step ','.toUInt8 = (scanner.count ','.toUInt8).endField := by
    have hend : endsLine ','.toUInt8 = false := by decide
    have hquote : ','.toUInt8 ≠ '"'.toUInt8 := by decide
    rcases hshows.mode_eq with hmode | hmode | hmode <;>
      simp [step, hmode, hend, first, hquote, plain]
  rw [hstep]
  refine ⟨⟨.inr (.inl rfl), hshows.records_eq, ?_, rfl⟩, rfl⟩
  rw [← hshows.cells_eq, ← hshows.front_eq]
  exact Array.toList_push

theorem step_newline (hshows : scanner.Shows records cells front)
    (hmode : scanner.mode ≠ .between) :
    (scanner.step '\n'.toUInt8).Shows (records ++ [cells ++ [front]]) [] [] ∧
      (scanner.step '\n'.toUInt8).mode = .between := by
  have hstep : scanner.step '\n'.toUInt8 =
      (scanner.count '\n'.toUInt8).endRecord .between := by
    have hend : endsLine '\n'.toUInt8 = true := by decide
    have hquote : '\n'.toUInt8 ≠ '"'.toUInt8 := by decide
    have hcomma : '\n'.toUInt8 ≠ ','.toUInt8 := by decide
    have hreturn : '\n'.toUInt8 ≠ '\r'.toUInt8 := by decide
    rcases hshows.mode_eq with hbetween | hfield | hfield
    · exact absurd hbetween hmode
    · simp [step, hfield, first, hquote, plain, hcomma, hend, hreturn]
    · simp [step, hfield, plain, hcomma, hend, hreturn]
  rw [hstep]
  refine ⟨⟨.inl rfl, ?_, rfl, rfl⟩, rfl⟩
  rw [← hshows.records_eq, ← hshows.cells_eq, ← hshows.front_eq]
  simp [endRecord, count]

/-- The bytes of a cell come after its front; unless there are none of them, the
scanner is within the cell then. -/
theorem foldl_cell (hshows : scanner.Shows records cells front)
    {cell : List UInt8} (hcell : ∀ byte ∈ cell, Plain byte) :
    (cell.foldl step scanner).Shows records cells (front ++ cell) ∧
      (cell ≠ [] → (cell.foldl step scanner).mode = .inField) := by
  induction cell using List.reverseRecOn with
  | nil =>
      refine ⟨?_, fun hnil => absurd rfl hnil⟩
      rwa [List.append_nil]
  | append_singleton cell byte ih =>
      have hfront := ih fun other hother =>
        hcell other (List.mem_append_left _ hother)
      have hbyte := hcell byte (by simp)
      rw [List.foldl_concat, ← List.append_assoc]
      obtain ⟨hall, hmode⟩ := hfront.1.step_of_plain hbyte
      exact ⟨hall, fun _ => hmode⟩

/-- A line ends the record, whether it is the first one at hand or goes on. -/
theorem foldl_line (hshows : scanner.Shows records cells [])
    {more : List (List UInt8)}
    (hmore : ∀ cell ∈ more, ∀ byte ∈ cell, Plain byte)
    (hsome : more ≠ []) (hline : scanner.mode = .between → more ≠ [[]]) :
    ((lineOf more).foldl step scanner).Shows (records ++ [cells ++ more]) [] [] ∧
      ((lineOf more).foldl step scanner).mode = .between := by
  induction more generalizing scanner cells with
  | nil => exact absurd rfl hsome
  | cons cell rest ih =>
      obtain ⟨hcell, hmode⟩ := hshows.foldl_cell (hmore cell List.mem_cons_self)
      rw [List.nil_append] at hcell
      cases rest with
      | nil =>
          have hnot : (cell.foldl step scanner).mode ≠ .between := by
            by_cases hempty : cell = []
            · intro hbetween
              subst hempty
              exact hline hbetween rfl
            · rw [hmode hempty]
              decide
          rw [lineOf, List.intercalate_singleton, List.foldl_concat]
          exact hcell.step_newline hnot
      | cons next rest =>
          obtain ⟨hcomma, hstart⟩ := hcell.step_comma
          have hnext : ∀ other ∈ next :: rest, ∀ byte ∈ other, Plain byte :=
            fun other hother => hmore other (List.mem_cons_of_mem _ hother)
          have hrest := ih hcomma hnext (List.cons_ne_nil _ _)
            fun hbetween => by simp [hstart] at hbetween
          rw [List.append_assoc, List.singleton_append] at hrest
          rw [lineOf, List.intercalate_cons_cons, List.append_assoc,
            List.append_assoc, List.foldl_append, List.singleton_append,
            List.foldl_cons]
          exact hrest

theorem foldl_lines (hshows : scanner.Shows records [] [])
    (hmode : scanner.mode = .between) {rows : List (List (List UInt8))}
    (hrows : ∀ row ∈ rows, Tellable row) :
    ((rows.flatMap lineOf).foldl step scanner).Shows (records ++ rows) [] [] ∧
      ((rows.flatMap lineOf).foldl step scanner).mode = .between := by
  induction rows generalizing scanner records with
  | nil => exact ⟨by rwa [List.append_nil], hmode⟩
  | cons row rows ih =>
      have hrow := hrows row List.mem_cons_self
      obtain ⟨hline, hbetween⟩ := hshows.foldl_line hrow.plain hrow.ne_nil
        fun _ => hrow.ne_empty
      have hrest := ih hline hbetween
        fun other hother => hrows other (List.mem_cons_of_mem _ hother)
      rw [List.append_assoc, List.nil_append, List.singleton_append] at hrest
      rw [List.flatMap_cons, List.foldl_append]
      exact hrest

end Shows

end Scanner

theorem exists_cons_of_line {cells : List (List UInt8)} (hcells : Tellable cells) :
    ∃ byte bytes, lineOf cells = byte :: bytes ∧ byte.toNat < 128 := by
  cases cells with
  | nil => exact absurd rfl hcells.ne_nil
  | cons cell rest =>
      cases cell with
      | nil =>
          cases rest with
          | nil => exact absurd rfl hcells.ne_empty
          | cons next rest =>
              rw [lineOf, List.intercalate_cons_cons]
              exact ⟨_, _, rfl, by decide⟩
      | cons byte cell =>
          have hascii := (hcells.plain _ List.mem_cons_self byte
            List.mem_cons_self).ascii
          cases rest with
          | nil => exact ⟨byte, _, rfl, hascii⟩
          | cons next rest =>
              rw [lineOf, List.intercalate_cons_cons]
              exact ⟨byte, _, rfl, hascii⟩

theorem not_orderMark_lines {rows : List (List (List UInt8))}
    (hrows : ∀ row ∈ rows, Tellable row) :
    orderMark.isPrefixOf (rows.flatMap lineOf) = false := by
  cases rows with
  | nil => rfl
  | cons row rows =>
      obtain ⟨byte, bytes, hline, hascii⟩ :=
        exists_cons_of_line (hrows row List.mem_cons_self)
      have hne : ((0xEF : UInt8) == byte) = false := by
        apply beq_eq_false_iff_ne.mpr
        rintro rfl
        exact absurd hascii (by decide)
      rw [List.flatMap_cons, hline, List.cons_append, orderMark,
        List.isPrefixOf_cons_cons, hne, Bool.false_and]

/-- The records of a table that was written are its lines, cell by cell. -/
theorem fields_records_lines {rows : List (List (List UInt8))}
    (hrows : ∀ row ∈ rows, Tellable row) :
    (records (rows.flatMap lineOf)).map Record.fields = rows := by
  have hstart := Scanner.shows_start 0
  obtain ⟨hall, hmode⟩ := hstart.foldl_lines rfl hrows
  rw [records, not_orderMark_lines hrows]
  simp only [Bool.false_eq_true, if_false, List.drop_zero]
  rw [Scanner.finish, hmode]
  exact hall.records_eq

theorem encode_line {cells : List String}
    (hascii : ∀ cell ∈ cells, ∀ c ∈ cell.toList, c.toNat < 128) :
    Text.encode (line cells) =
      lineOf (cells.map fun cell => cell.toList.map Char.toUInt8) := by
  have hcells : (",".toList.intercalate (cells.map String.toList)).flatMap
      String.utf8EncodeChar =
        [','.toUInt8].intercalate
          (cells.map fun cell => cell.toList.map Char.toUInt8) := by
    induction cells with
    | nil => rfl
    | cons cell rest ih =>
        have hcell := Text.encode_of_ascii (hascii cell List.mem_cons_self)
        have hrest := ih fun other hother =>
          hascii other (List.mem_cons_of_mem _ hother)
        cases rest with
        | nil =>
            simp only [List.map_cons, List.map_nil, List.intercalate_singleton]
            exact hcell
        | cons next rest =>
            simp only [List.map_cons] at hrest ⊢
            rw [List.intercalate_cons_cons, List.intercalate_cons_cons,
              List.flatMap_append, List.flatMap_append, hcell, hrest]
            rfl
  rw [Text.encode, line, String.toList_append, String.toList_intercalate,
    List.flatMap_append, hcells, lineOf]
  rfl

/-! ## Rows of texts -/

/-- Characters that come behind the blanks and the marks that cells are told apart
by. -/
def Unmarked (text : List Char) : Prop :=
  ∀ c ∈ text, 45 ≤ c.toNat ∧ c.toNat < 128

instance (text : List Char) : Decidable (Unmarked text) :=
  List.decidableBAll (fun c : Char => 45 ≤ c.toNat ∧ c.toNat < 128) text

theorem Unmarked.append {text more : List Char} (htext : Unmarked text)
    (hmore : Unmarked more) : Unmarked (text ++ more) := by
  intro c hc
  rcases List.mem_append.mp hc with hc | hc
  · exact htext c hc
  · exact hmore c hc

theorem unmarked_of_digits {digits : List Char}
    (hdigits : Text.AreDigits digits) : Unmarked digits := by
  intro c hc
  have hrange := Text.toNat_of_isDigit (hdigits c hc)
  omega

/-- A cell that is written as it stands. -/
structure Legible (cell : List Char) : Prop where
  ne_nil : cell ≠ []
  unmarked : Unmarked cell

instance (cell : List Char) : Decidable (Legible cell) :=
  decidable_of_iff (cell ≠ [] ∧ Unmarked cell)
    ⟨fun h => ⟨h.1, h.2⟩, fun h => ⟨h.ne_nil, h.unmarked⟩⟩

def storedCells (cells : Cells) : List (List UInt8) :=
  cells.map fun cell => cell.map Char.toUInt8

def tableOf (rows : List Cells) : List UInt8 :=
  (rows.map storedCells).flatMap lineOf

theorem plain_of_le {byte : UInt8} (hle : 45 ≤ byte.toNat)
    (hascii : byte.toNat < 128) : Plain byte := by
  have hne : ∀ other : UInt8, other.toNat < 45 → byte ≠ other := by
    rintro other hother rfl
    omega
  refine ⟨hascii, hne _ (by decide), hne _ (by decide), ?_⟩
  simp [Scanner.endsLine, hne '\n'.toUInt8 (by decide),
    hne '\r'.toUInt8 (by decide)]

namespace Legible

variable {cell : List Char}

theorem byte_range (hcell : Legible cell) {byte : UInt8}
    (hbyte : byte ∈ cell.map Char.toUInt8) :
    45 ≤ byte.toNat ∧ byte.toNat < 128 := by
  obtain ⟨c, hc, rfl⟩ := List.mem_map.mp hbyte
  rw [Text.toNat_toUInt8 (hcell.unmarked c hc).2]
  exact hcell.unmarked c hc

theorem trim_bytes (hcell : Legible cell) :
    Text.trim Text.isBlankByte (cell.map Char.toUInt8) =
      cell.map Char.toUInt8 := by
  apply Text.trim_of_forall
  intro byte hbyte
  have hrange := hcell.byte_range hbyte
  simp [Text.isBlankByte]
  omega

theorem trim_text (hcell : Legible cell) :
    Text.trim Text.isBlank cell = cell := by
  apply Text.trim_of_forall
  intro c hc
  have hrange := hcell.unmarked c hc
  simp [Text.isBlank, Text.blankRanges]
  omega

theorem decode_bytes (hcell : Legible cell) :
    Text.decode (cell.map Char.toUInt8) = .ok cell :=
  Text.decode_of_ascii fun c hc => (hcell.unmarked c hc).2

end Legible

section

variable {cells : Cells}

theorem tellable_of_legible (hcells : ∀ cell ∈ cells, Legible cell)
    (hsome : cells ≠ []) : Tellable (storedCells cells) where
  plain stored hstored byte hbyte := by
    obtain ⟨cell, hcell, rfl⟩ := List.mem_map.mp hstored
    have hrange := (hcells cell hcell).byte_range hbyte
    exact plain_of_le hrange.1 hrange.2
  ne_nil := by simpa [storedCells] using hsome
  ne_empty hempty := by
    obtain ⟨cell, rest, rfl⟩ := List.exists_cons_of_ne_nil hsome
    have hfirst := (List.cons_eq_cons.mp hempty).1
    exact (hcells cell List.mem_cons_self).ne_nil (List.map_eq_nil_iff.mp hfirst)

theorem textFrom_storedCells (hcells : ∀ cell ∈ cells, Legible cell)
    (number : ℕ) : textFrom number (storedCells cells) = .ok cells := by
  induction cells generalizing number with
  | nil => rfl
  | cons cell cells ih =>
      have hcell := hcells cell List.mem_cons_self
      have hrest := ih (fun other hother =>
        hcells other (List.mem_cons_of_mem _ hother)) (number + 1)
      rw [storedCells] at hrest
      rw [storedCells, List.map_cons, textFrom, hcell.decode_bytes, hrest]
      show Except.ok (Text.trim Text.isBlank cell :: cells) = .ok (cell :: cells)
      rw [hcell.trim_text]

theorem cellsOf_of_legible (hcells : ∀ cell ∈ cells, Legible cell)
    {record : Record} (hfields : record.fields = storedCells cells) :
    cellsOf record = .ok cells := by
  have hbytes : (storedCells cells).map (Text.trim Text.isBlankByte) =
      storedCells cells := by
    rw [storedCells, List.map_map]
    exact List.map_congr_left fun cell hcell => (hcells cell hcell).trim_bytes
  rw [cellsOf, hfields, hbytes, textFrom_storedCells hcells]
  rfl

theorem encode_line_of_legible {texts : List String}
    (htexts : ∀ text ∈ texts, Legible text.toList) :
    Text.encode (line texts) = lineOf (storedCells (texts.map String.toList)) := by
  rw [encode_line fun text htext c hc => ((htexts text htext).unmarked c hc).2,
    storedCells, List.map_map]
  rfl

end

/-! ## Rows that are read -/

/-- A way to put entries into rows: as many legible cells for each entry, and
these are read as a certain value. -/
structure Renders {α β : Type} (read : Cells → Except RowError α) (columns : ℕ)
    (cells : β → Cells) (value : β → α) : Prop where
  columns_pos : 0 < columns
  length_eq : ∀ entry, (cells entry).length = columns
  legible : ∀ entry, ∀ cell ∈ cells entry, Legible cell
  read_eq : ∀ entry, read (cells entry) = .ok (value entry)

namespace Renders

variable {α β : Type} {columns : ℕ} {cells : β → Cells} {value : β → α}
  {entries : List β}

theorem rowOf_eq {read : Cells → Except RowError α}
    (hrenders : Renders read columns cells value) {entry : β} {record : Record}
    (hfields : record.fields = storedCells (cells entry)) :
    rowOf read columns record = .ok (value entry) := by
  have hlength : checkLength columns record = .ok () := by
    rw [checkLength, hfields, storedCells, List.length_map, hrenders.length_eq,
      if_pos rfl]
  rw [rowOf, hlength, cellsOf_of_legible (hrenders.legible entry) hfields]
  show (read (cells entry)).mapError _ = .ok (value entry)
  rw [hrenders.read_eq]
  rfl

theorem mapM_rowOf_eq {read : Cells → Except RowError α}
    (hrenders : Renders read columns cells value) {records : List Record}
    (hfields : records.map Record.fields =
      (entries.map cells).map storedCells) :
    records.mapM (rowOf read columns) = .ok (entries.map value) := by
  induction entries generalizing records with
  | nil =>
      obtain rfl := List.map_eq_nil_iff.mp hfields
      rfl
  | cons entry entries ih =>
      obtain ⟨record, records, rfl, hrecord, hrest⟩ :=
        List.map_eq_cons_iff.mp hfields
      rw [List.mapM_cons, hrenders.rowOf_eq hrecord, ih hrest]
      rfl

theorem tellable {read : Cells → Except RowError α}
    (hrenders : Renders read columns cells value) (entries : List β) :
    ∀ row ∈ (entries.map cells).map storedCells, Tellable row := by
  intro row hrow
  obtain ⟨_, hcells, rfl⟩ := List.mem_map.mp hrow
  obtain ⟨entry, -, rfl⟩ := List.mem_map.mp hcells
  refine tellable_of_legible (hrenders.legible entry) fun hnil => ?_
  have hlength := hrenders.length_eq entry
  rw [hnil] at hlength
  exact Nat.ne_of_lt hrenders.columns_pos hlength

variable {read : Option Cells → Cells → Except RowError α}

theorem read_unnamed (hrenders : Renders (read none) columns cells value)
    (entries : List β) :
    Table.read read false (tableOf (entries.map cells)) =
      .ok (entries.map value) := by
  have hfields := fields_records_lines (hrenders.tellable entries)
  rw [Table.read, tableOf]
  cases hrecords : records (((entries.map cells).map storedCells).flatMap lineOf) with
  | nil =>
      rw [hrecords] at hfields
      exact hrenders.mapM_rowOf_eq hfields
  | cons first rest =>
      rw [hrecords] at hfields
      -- All rows have as many cells, so the first one sets the right length.
      have hlength : first.fields.length = columns := by
        have hfirst : first.fields ∈ (first :: rest).map Record.fields :=
          List.mem_cons_self
        rw [hfields] at hfirst
        obtain ⟨_, hcells, hstored⟩ := List.mem_map.mp hfirst
        obtain ⟨entry, -, rfl⟩ := List.mem_map.mp hcells
        rw [← hstored, storedCells, List.length_map, hrenders.length_eq]
      have hrows := hrenders.mapM_rowOf_eq hfields
      rw [rowsOf, hlength]
      exact hrows

theorem read_named {names : Cells} (hnames : ∀ name ∈ names, Legible name)
    (hcolumns : names.length = columns)
    (hrenders : Renders (read (some names)) columns cells value)
    (entries : List β) :
    Table.read read true (tableOf (names :: entries.map cells)) =
      .ok (entries.map value) := by
  have hsome : names ≠ [] := by
    rintro rfl
    exact Nat.ne_of_lt hrenders.columns_pos hcolumns
  have htellable : ∀ row ∈ (names :: entries.map cells).map storedCells,
      Tellable row := by
    rw [List.map_cons, List.forall_mem_cons]
    exact ⟨tellable_of_legible hnames hsome, hrenders.tellable entries⟩
  have hfields := fields_records_lines htellable
  rw [← tableOf] at hfields
  obtain ⟨first, rest, hrecords, hfirst, hrest⟩ := List.map_eq_cons_iff.mp hfields
  rw [Table.read, hrecords, rowsOf]
  simp only [if_true, hfirst, textFrom_storedCells hnames]
  rw [storedCells, List.length_map, hcolumns]
  exact hrenders.mapM_rowOf_eq hrest

end Renders

/-! ## Tables of ids -/

def idCell (id : UInt32) : List Char :=
  Nat.toDigits 10 id.toNat

/-- The bytes of a table of ids. -/
def idTable (named : Bool) (ids : List UInt32) : List UInt8 :=
  (idLines named ids).flatMap Text.encode

def idRows (named : Bool) (ids : List UInt32) : List (List (List UInt8)) :=
  (if named then [["segment".toList.map Char.toUInt8]] else []) ++
    ids.map fun id => [(idCell id).map Char.toUInt8]

theorem legible_toDigits (number : ℕ) : Legible (Nat.toDigits 10 number) where
  ne_nil := Nat.toDigits_ne_nil
  unmarked := unmarked_of_digits (Text.areDigits_toDigits number)

theorem readId_idCell (id : UInt32) : readId [idCell id] = .ok id := by
  have hcovers : IntegerRange.word.Covers false id.toNat := by
    have hlt := id.toNat_lt
    refine ⟨by decide, by decide, ?_, ?_⟩ <;> simp [signed, IntegerRange.word]
    omega
  have hcell := integerCell_toDigits hcovers
  rw [readId, integerAt, idCell, hcell]
  show Except.ok (UInt32.ofNat (id.toNat : ℤ).toNat) = .ok id
  rw [Int.toNat_natCast, UInt32.ofNat_toNat]

theorem renders_ids : Renders readId 1 (fun id => [idCell id]) id where
  columns_pos := Nat.one_pos
  length_eq _ := rfl
  legible number cell hcell := by
    rw [List.mem_singleton.mp hcell]
    exact legible_toDigits number.toNat
  read_eq := readId_idCell

theorem idTable_eq_decimals (named : Bool) (ids : List UInt32) :
    idTable named ids =
      ((if named then ["segment\n"] else []) ++
        ids.map fun id => toString id.toNat ++ "\n").flatMap Text.encode :=
  rfl

theorem idRows_eq (named : Bool) (ids : List UInt32) :
    idRows named ids =
      ((if named then [["segment".toList]] else []) ++
        ids.map fun id => [idCell id]).map storedCells := by
  rw [idRows, List.map_append, List.map_map]
  congr 1
  cases named <;> rfl

theorem idTable_eq_tableOf (named : Bool) (ids : List UInt32) :
    idTable named ids =
      tableOf ((if named then [["segment".toList]] else []) ++
        ids.map fun id => [idCell id]) := by
  have hline : ∀ id, Text.encode (idLine id) = lineOf (storedCells [idCell id]) := by
    intro id
    have htext : (toString id.toNat).toList = idCell id := by
      rw [Nat.toString_eq_repr, Nat.repr, String.toList_ofList, idCell]
    have hlegible : ∀ text ∈ [toString id.toNat], Legible text.toList := by
      intro text hmem
      rw [List.mem_singleton.mp hmem, htext]
      exact legible_toDigits id.toNat
    rw [idLine, encode_line_of_legible hlegible, List.map_singleton, htext]
  rw [idTable, idLines, tableOf, List.map_append, List.flatMap_append,
    List.flatMap_append, List.flatMap_map, List.flatMap_map, List.flatMap_map]
  congr 1
  · cases named <;> rfl
  · rw [List.flatMap_map]
    exact congrArg (List.flatMap · ids) (funext hline)

theorem fields_records_idTable (named : Bool) (ids : List UInt32) :
    (records (idTable named ids)).map Record.fields = idRows named ids := by
  have htellable : ∀ row ∈ idRows named ids, Tellable row := by
    rw [idRows_eq, List.map_append]
    intro row hrow
    rcases List.mem_append.mp hrow with hname | hids
    · cases named with
      | false => cases hname
      | true =>
          obtain rfl := List.mem_singleton.mp hname
          exact tellable_of_legible (by decide) (List.cons_ne_nil _ _)
    · exact renders_ids.tellable ids row hids
  rw [idTable_eq_tableOf, tableOf, ← idRows_eq, fields_records_lines htellable]

/-- A table of ids is read as the ids that were written. -/
theorem read_idTable (named : Bool) (ids : List UInt32) :
    read (fun _ cells => readId cells) named (idTable named ids) = .ok ids := by
  rw [idTable_eq_tableOf]
  cases named with
  | true =>
      have hread := @Renders.read_named _ _ _ _ _ (fun _ cells => readId cells)
        ["segment".toList] (by decide) rfl renders_ids ids
      rwa [List.map_id] at hread
  | false =>
      have hread := @Renders.read_unnamed _ _ _ _ _ (fun _ cells => readId cells)
        renders_ids ids
      rwa [List.map_id] at hread

end Table

end PackedTopology
