import PackedTopology.Proofs.Directory
import PackedTopology.Proofs.NumberText
import PackedTopology.Proofs.WrittenTable

/-!
# Tables of entries that were written

The cells of an entry are decimal numbers and the texts of scalars, which need no
quotes either.  Each of them is read as what it was written for, but one: a
not-a-number is written without its sign and its other bits, and is read as the one
that its text stands for.  Names stand in front of the rows if there are rows; they
are the names of the columns in order, so reading by name or by place finds the
same.
-/

namespace PackedTopology

/-! ## Texts of numbers -/

namespace NumberLayout

open Literal Table Text

variable {layout : NumberLayout} {digits : List Char}

theorem unmarked_positionalText (layout : NumberLayout) (hdigits : AreDigits digits)
    (point : ℤ) : Unmarked (layout.positionalText digits point) := by
  have hnone : Unmarked [] := by simp [Unmarked]
  have hzero : Unmarked ['0', '.'] := by simp [Unmarked]
  have hpoint : Unmarked ['.'] := by simp [Unmarked]
  have hfraction : Unmarked ['.', '0'] := by simp [Unmarked]
  have hzeros : ∀ count, Unmarked (zeros count) := fun count =>
    unmarked_of_digits (areDigits_replicate count.toNat)
  rw [positionalText]
  split
  · exact (hzero.append (hzeros _)).append (unmarked_of_digits hdigits)
  split
  · have hwhole : Unmarked (digits.take point.toNat) :=
      unmarked_of_digits fun c hc => hdigits c (List.mem_of_mem_take hc)
    have hrest : Unmarked (digits.drop point.toNat) :=
      unmarked_of_digits fun c hc => hdigits c (List.mem_of_mem_drop hc)
    exact hwhole.append (hpoint.append hrest)
  · refine ((unmarked_of_digits hdigits).append (hzeros _)).append ?_
    split
    · exact hfraction
    · exact hnone

theorem unmarked_exponentText (hplus : layout.signExponent = false)
    (hdigits : AreDigits digits) (point : ℤ) :
    Unmarked (layout.exponentText digits point) := by
  have hnone : Unmarked [] := by simp [Unmarked]
  have hpoint : Unmarked ['.'] := by simp [Unmarked]
  have hmark : Unmarked ['e'] := by simp [Unmarked]
  have hminus : Unmarked ['-'] := by simp [Unmarked]
  have hfirst : Unmarked (digits.take 1) :=
    unmarked_of_digits fun c hc => hdigits c (List.mem_of_mem_take hc)
  have hmore : Unmarked (digits.drop 1) :=
    unmarked_of_digits fun c hc => hdigits c (List.mem_of_mem_drop hc)
  have hpower := unmarked_of_digits (areDigits_toDigits (point - 1).natAbs)
  have hrest : Unmarked (if digits.length ≤ 1 then [] else '.' :: digits.drop 1) := by
    split
    · exact hnone
    · exact hpoint.append hmore
  have hsign : Unmarked (if point - 1 < 0 then ['-'] else []) := by
    split
    · exact hminus
    · exact hnone
  simp only [exponentText, hplus, Bool.false_eq_true, if_false]
  exact ((hfirst.append hrest).append (hmark.append hsign)).append hpower

theorem unmarked_magnitudeText (hplus : layout.signExponent = false)
    (magnitude : ℕ) : Unmarked (layout.magnitudeText magnitude) := by
  have hdigits := areDigits_digitsOf (Decimal.shortest layout.tie magnitude).digits
  rw [magnitudeText]
  split
  · exact unmarked_positionalText layout hdigits _
  · split
    · exact unmarked_positionalText layout hdigits _
    · exact unmarked_exponentText hplus hdigits _

/-- A layout that puts no plus into a text leaves it legible. -/
theorem legible_text (hplus : layout.signExponent = false) (x : Scalar) :
    Legible (layout.text x).toList where
  ne_nil := by
    rw [Ne, String.toList_eq_nil_iff]
    intro hempty
    by_cases hnan : x.IsNaN
    · rw [text, if_pos hnan] at hempty
      exact absurd hempty (by decide)
    · have hread := Scalar.ofLiteral_text layout hnan
      rw [hempty] at hread
      cases hread
  unmarked := by
    have hsign : Unmarked (if x.negative then ['-'] else []) := by
      split <;> simp [Unmarked]
    rw [text]
    split
    · simp [Unmarked]
    · rw [String.toList_ofList]
      refine hsign.append ?_
      split
      · cases layout.keepFraction <;> simp [Unmarked]
      · split
        · exact unmarked_magnitudeText hplus _
        · simp [Unmarked]

end NumberLayout

namespace Table

/-! ## Cells of entries -/

theorem toList_toString (number : ℤ) :
    (toString number).toList =
      (if number < 0 then ['-'] else []) ++ Nat.toDigits 10 number.natAbs := by
  cases number with
  | ofNat number =>
      have hnot : ¬Int.ofNat number < 0 := Int.not_lt.mpr (Int.natCast_nonneg _)
      rw [if_neg hnot, List.nil_append]
      show (Nat.repr number).toList = _
      rw [Nat.repr, String.toList_ofList]
      rfl
  | negSucc number =>
      rw [if_pos (Int.negSucc_lt_zero number)]
      show ("-" ++ Nat.repr (number + 1)).toList = _
      rw [String.toList_append, Nat.repr, String.toList_ofList,
        String.toList_ofList]
      rfl

theorem legible_integer (number : ℤ) : Legible (toString number).toList := by
  have hdigits := legible_toDigits number.natAbs
  have hsign : Unmarked (if number < 0 then ['-'] else []) := by
    split <;> simp [Unmarked]
  rw [toList_toString]
  exact ⟨List.append_ne_nil_of_right_ne_nil _ hdigits.ne_nil,
    hsign.append hdigits.unmarked⟩

theorem integerAt_toString (vertex : Int32) (number : ℕ) :
    integerAt .integer number (toString vertex.toInt).toList = .ok vertex.toInt := by
  have hlow : -2147483648 ≤ vertex.toInt := vertex.le_toInt
  have hhigh : vertex.toInt < 2147483648 := vertex.toInt_lt
  have hcell : integerCell .integer (toString vertex.toInt).toList =
      .ok vertex.toInt := by
    rw [toList_toString]
    by_cases hnegative : vertex.toInt < 0
    · have hcovers : IntegerRange.integer.Covers true vertex.toInt.natAbs := by
        refine ⟨by decide, by decide, ?_, ?_⟩ <;>
          simp only [signed, IntegerRange.integer, if_true] <;> omega
      rw [if_pos hnegative, List.singleton_append,
        integerCell_minus_toDigits (by decide) hcovers]
      congr 1
      omega
    · have hcovers : IntegerRange.integer.Covers false vertex.toInt.natAbs := by
        refine ⟨by decide, by decide, ?_, ?_⟩ <;>
          simp only [signed, IntegerRange.integer, Bool.false_eq_true, if_false] <;>
          omega
      rw [if_neg hnegative, List.nil_append, integerCell_toDigits hcovers]
      congr 1
      omega
  rw [integerAt, hcell]
  rfl

end Table

/-- What the text of a scalar is read as. -/
def Scalar.readBack (x : Scalar) : Scalar :=
  if x.IsNaN then readNaN else x

/-- The entry that is read from the row of an entry. -/
def MappingEntry.readBack (entry : MappingEntry) : MappingEntry :=
  ⟨entry.vertex, entry.value.readBack⟩

def Constraint.readBack (constraint : Constraint) : Constraint :=
  ⟨constraint.vertex, constraint.value.readBack, constraint.kind⟩

theorem Scalar.ofLiteral_text_eq (layout : NumberLayout) (x : Scalar) :
    ofLiteral (layout.text x) = .ok x.readBack := by
  by_cases hnan : x.IsNaN
  · rw [readBack, if_pos hnan, ofLiteral_text_of_isNaN layout hnan]
  · rw [readBack, if_neg hnan, ofLiteral_text layout hnan]

/-- What was read is written as before. -/
theorem NumberLayout.text_readBack (layout : NumberLayout) (x : Scalar) :
    layout.text x.readBack = layout.text x := by
  by_cases hnan : x.IsNaN
  · rw [Scalar.readBack, if_pos hnan, NumberLayout.text, NumberLayout.text,
      if_pos hnan, if_pos Scalar.isNaN_readNaN]
  · rw [Scalar.readBack, if_neg hnan]

namespace Table

theorem scalarAt_text (x : Scalar) (number : ℕ) :
    scalarAt number (scalarLayout.text x).toList = .ok x.readBack := by
  rw [scalarAt, scalarCell, String.ofList_toList, Scalar.ofLiteral_text_eq]
  rfl

theorem take_vertex (vertex : Int32) (number : ℕ) (parts : Parts) :
    Column.vertex.take number (toString vertex.toInt).toList parts =
      .ok { parts with vertex := some vertex } := by
  rw [Column.take, integerAt_toString]
  show Except.ok { parts with vertex := some (Int32.ofInt vertex.toInt) } = _
  rw [Int32.ofInt_toInt]

theorem take_value (x : Scalar) (number : ℕ) (parts : Parts) :
    Column.value.take number (scalarLayout.text x).toList parts =
      .ok { parts with value := some x.readBack } := by
  rw [Column.take, scalarAt_text]
  rfl

theorem take_kind (kind : Int32) (number : ℕ) (parts : Parts) :
    Column.kind.take number (toString kind.toInt).toList parts =
      .ok { parts with kind := some kind } := by
  rw [Column.take, integerAt_toString]
  show Except.ok { parts with kind := some (Int32.ofInt kind.toInt) } = _
  rw [Int32.ofInt_toInt]

/-! ## Columns by name -/

namespace Column

theorem toList_name_inj {column other : Column}
    (hname : column.name.toList = other.name.toList) : column = other := by
  cases column <;> cases other <;> first | rfl | exact absurd hname (by decide)

theorem find?_name {columns : List Column} {column : Column}
    (hmem : column ∈ columns) :
    columns.find? (fun other => other.name.toList = column.name.toList) =
      some column := by
  induction columns with
  | nil => cases hmem
  | cons first columns ih =>
      by_cases hfirst : first = column
      · rw [hfirst]
        exact List.find?_cons_of_pos (decide_eq_true rfl)
      · rw [List.find?_cons_of_neg (by simpa using mt toList_name_inj hfirst)]
        exact ih ((List.mem_cons.mp hmem).resolve_left (Ne.symm hfirst))

theorem isFound_of_take {column other : Column} {number : ℕ} {cell : List Char}
    {parts next : Parts} (htake : column.take number cell parts = .ok next)
    (hne : other ≠ column) : other.isFound next = other.isFound parts := by
  cases column with
  | vertex | value | kind =>
      obtain ⟨_, -, hnext⟩ := bind_eq_ok_iff.mp htake
      obtain rfl := Except.ok.inj hnext
      cases other <;> first | rfl | exact absurd rfl hne

end Column

namespace Parts

theorem inOrder_of_take {kind : String} {columns number : ℕ} {column : Column}
    {rest : List Column} {cell : List Char} {cells : Cells} {parts next : Parts}
    (htake : column.take number cell parts = .ok next) :
    inOrder kind columns (column :: rest) number (cell :: cells) parts =
      inOrder kind columns rest (number + 1) cells next := by
  rw [inOrder, htake]
  rfl

/-- Cells behind the names of columns in order are read as without names. -/
theorem named_eq_inOrder (kind : String) {columns rest : List Column}
    (hsub : rest ⊆ columns) (hdistinct : rest.Nodup) {cells : Cells}
    (hlength : cells.length = rest.length) {parts : Parts}
    (hfresh : ∀ column ∈ rest, column.isFound parts = false) (number : ℕ) :
    named columns number (rest.map fun column => column.name.toList) cells parts =
      inOrder kind columns.length rest number cells parts := by
  induction rest generalizing cells parts number with
  | nil =>
      obtain rfl := List.eq_nil_of_length_eq_zero hlength
      rfl
  | cons column rest ih =>
      obtain ⟨cell, cells, rfl⟩ := List.exists_cons_of_length_eq_add_one hlength
      obtain ⟨hnot, hdistinct⟩ := List.nodup_cons.mp hdistinct
      rw [List.map_cons, named, Column.find?_name (hsub List.mem_cons_self)]
      simp only [hfresh column List.mem_cons_self, Bool.false_eq_true, if_false]
      cases htake : column.take number cell parts with
      | error error =>
          rw [inOrder, htake]
          rfl
      | ok next =>
          -- The column is found now, but no other one that is left.
          rw [inOrder_of_take htake]
          refine ih (fun other hother => hsub (List.mem_cons_of_mem _ hother))
            hdistinct (Nat.succ.inj hlength) ?_ (number + 1)
          intro other hother
          have hne : other ≠ column := by
            rintro rfl
            exact hnot hother
          rw [Column.isFound_of_take htake hne]
          exact hfresh other (List.mem_cons_of_mem _ hother)

theorem read_named (kind : String) {columns : List Column}
    (hdistinct : columns.Nodup) {cells : Cells}
    (hlength : cells.length = columns.length) :
    read kind columns (some (columns.map fun column => column.name.toList)) cells =
      read kind columns none cells := by
  apply named_eq_inOrder kind (List.Subset.refl columns) hdistinct hlength
  intro column _
  cases column <;> rfl

end Parts

/-! ## Rows of entries -/

def mappingTexts (entry : MappingEntry) : List String :=
  [toString entry.vertex.toInt, scalarLayout.text entry.value]

def constraintTexts (constraint : Constraint) : List String :=
  [toString constraint.vertex.toInt, scalarLayout.text constraint.value,
    toString constraint.kind.toInt]

theorem renders_mapping :
    Renders (readMappingEntry none) 2
      (fun entry => (mappingTexts entry).map String.toList)
      MappingEntry.readBack where
  columns_pos := by decide
  length_eq _ := rfl
  legible entry := by
    simp only [mappingTexts, List.map_cons, List.map_nil, List.forall_mem_cons]
    exact ⟨legible_integer _, NumberLayout.legible_text rfl _, nofun⟩
  read_eq entry := by
    have hparts : Parts.read "MappingRecord" [.vertex, .value] none
        ((mappingTexts entry).map String.toList) =
          .ok ⟨some entry.vertex, some entry.value.readBack, none⟩ := by
      refine (Parts.inOrder_of_take (take_vertex _ _ _)).trans ?_
      exact Parts.inOrder_of_take (take_value _ _ _)
    rw [readMappingEntry, hparts]
    rfl

theorem renders_constraint :
    Renders (readConstraint none) 3
      (fun constraint => (constraintTexts constraint).map String.toList)
      Constraint.readBack where
  columns_pos := by decide
  length_eq _ := rfl
  legible constraint := by
    simp only [constraintTexts, List.map_cons, List.map_nil, List.forall_mem_cons]
    exact ⟨legible_integer _, NumberLayout.legible_text rfl _, legible_integer _,
      nofun⟩
  read_eq constraint := by
    have hparts : Parts.read "ConstraintRecord" [.vertex, .value, .kind] none
        ((constraintTexts constraint).map String.toList) =
          .ok ⟨some constraint.vertex, some constraint.value.readBack,
            some constraint.kind⟩ := by
      refine (Parts.inOrder_of_take (take_vertex _ _ _)).trans ?_
      refine (Parts.inOrder_of_take (take_value _ _ _)).trans ?_
      exact Parts.inOrder_of_take (take_kind _ _ _)
    rw [readConstraint, hparts]
    rfl

/-! ## Tables of entries -/

def mappingTable (named : Bool) (entries : List MappingEntry) : List UInt8 :=
  (mappingLines named entries).flatMap Text.encode

def constraintTable (named : Bool) (constraints : List Constraint) : List UInt8 :=
  (constraintLines named constraints).flatMap Text.encode

section

variable {α β : Type} {columns : ℕ} {texts : β → List String} {names : List String}
  {value : β → α} {read : Option Cells → Cells → Except RowError α}

/-- Rows with names in front of them, if there are rows, are read in order. -/
theorem read_withNames (named : Bool)
    (hlegible : ∀ name ∈ names, Legible name.toList)
    (hcolumns : names.length = columns)
    (hrenders : Renders (read none) columns
      (fun entry => (texts entry).map String.toList) value)
    (hnames : ∀ cells : Cells, cells.length = columns →
      read (some (names.map String.toList)) cells = read none cells)
    (entries : List β) :
    Table.read read named
      ((withNames named names (entries.map fun entry => line (texts entry))).flatMap
        Text.encode) = .ok (entries.map value) := by
  have hrows : (entries.map fun entry => line (texts entry)).flatMap Text.encode =
      tableOf (entries.map fun entry => (texts entry).map String.toList) := by
    rw [tableOf, List.flatMap_map, List.flatMap_map, List.flatMap_map]
    congr 1
    funext entry
    exact encode_line_of_legible fun text htext =>
      hrenders.legible entry _ (List.mem_map_of_mem htext)
  cases named with
  | false =>
      rw [withNames, Bool.false_and, if_neg Bool.false_ne_true, hrows]
      exact hrenders.read_unnamed entries
  | true =>
      cases entries with
      | nil => rfl
      | cons entry entries =>
          have hlegible' : ∀ name ∈ names.map String.toList, Legible name := by
            simpa using hlegible
          have hsame : Renders (read (some (names.map String.toList))) columns
              (fun entry => (texts entry).map String.toList) value :=
            { hrenders with
              read_eq := fun entry => by
                rw [hnames _ (hrenders.length_eq entry), hrenders.read_eq] }
          have hread := Renders.read_named hlegible'
            ((List.length_map _).trans hcolumns) hsame (entry :: entries)
          have hnonempty : (true && !((entry :: entries).map fun entry =>
              line (texts entry)).isEmpty) = true := rfl
          rw [withNames, if_pos hnonempty, List.flatMap_cons, hrows,
            encode_line_of_legible hlegible]
          exact hread

end

/-- A table of mapping entries is read as the entries that were written. -/
theorem read_mappingTable (named : Bool) (entries : List MappingEntry) :
    read readMappingEntry named (mappingTable named entries) =
      .ok (entries.map MappingEntry.readBack) := by
  refine read_withNames named (by decide) rfl renders_mapping ?_ entries
  intro cells hlength
  have hparts : Parts.read "MappingRecord" [.vertex, .value]
      (some (["vertex", "value"].map String.toList)) cells =
        Parts.read "MappingRecord" [.vertex, .value] none cells :=
    Parts.read_named "MappingRecord" (by decide) hlength
  rw [readMappingEntry, readMappingEntry, hparts]

theorem read_constraintTable (named : Bool) (constraints : List Constraint) :
    read readConstraint named (constraintTable named constraints) =
      .ok (constraints.map Constraint.readBack) := by
  refine read_withNames named (by decide) rfl renders_constraint ?_ constraints
  intro cells hlength
  have hparts : Parts.read "ConstraintRecord" [.vertex, .value, .kind]
      (some (["vertex", "value", "kind"].map String.toList)) cells =
        Parts.read "ConstraintRecord" [.vertex, .value, .kind] none cells :=
    Parts.read_named "ConstraintRecord" (by decide) hlength
  rw [readConstraint, readConstraint, hparts]

/-- Entries that were read are written as before. -/
theorem mappingTable_readBack (named : Bool) (entries : List MappingEntry) :
    mappingTable named (entries.map MappingEntry.readBack) =
      mappingTable named entries := by
  have hline : mappingLine ∘ MappingEntry.readBack = mappingLine := by
    funext entry
    rw [Function.comp_apply, mappingLine, mappingLine]
    simp only [MappingEntry.readBack, NumberLayout.text_readBack]
  rw [mappingTable, mappingLines, List.map_map, hline]
  rfl

theorem constraintTable_readBack (named : Bool) (constraints : List Constraint) :
    constraintTable named (constraints.map Constraint.readBack) =
      constraintTable named constraints := by
  have hline : constraintLine ∘ Constraint.readBack = constraintLine := by
    funext constraint
    rw [Function.comp_apply, constraintLine, constraintLine]
    simp only [Constraint.readBack, NumberLayout.text_readBack]
  rw [constraintTable, constraintLines, List.map_map, hline]
  rfl

end Table

end PackedTopology
