import PackedTopology.Proofs.IndexGrammar
import PackedTopology.Proofs.Inspection

/-!
# Commands that fail while they read

A command reads all of its input before it opens an output.  So whatever is
wrong with the input, be it that a path leads nowhere, that a record is cut, that
a table has a row that cannot be read, or that the settings are of no use, the
command ends with a complaint and leaves the directory as it was.  Inspecting
never changes a directory at all.
-/

namespace PackedTopology

/-! ## Tables with a malformed row -/

namespace Table

variable {α : Type} {read : Option Cells → Cells → Except RowError α}

theorem mapM_eq_error_iff {ε β : Type} {change : α → Except ε β}
    {values : List α} :
    (∃ error, values.mapM change = .error error) ↔
      ∃ value ∈ values, ∃ error, change value = .error error := by
  induction values with
  | nil =>
      constructor
      · rintro ⟨_, hnil⟩
        cases hnil
      · rintro ⟨_, hnil, -⟩
        cases hnil
  | cons value values ih =>
      rw [List.mapM_cons, List.exists_mem_cons_iff, ← ih]
      cases hfirst : change value with
      | error error =>
          exact iff_of_true ⟨error, rfl⟩ (.inl ⟨error, rfl⟩)
      | ok result =>
          cases hrest : values.mapM change with
          | error error =>
              exact iff_of_true ⟨error, rfl⟩ (.inr ⟨error, rfl⟩)
          | ok results =>
              apply iff_of_false
              · rintro ⟨_, hboth⟩
                cases hboth
              · rintro (⟨_, hfalse⟩ | ⟨_, hfalse⟩) <;> cases hfalse

/-- The names of the columns, if the first record has them. -/
def namesIn (named : Bool) (first : Record) : Option Cells :=
  if named then (textFrom 0 first.fields).toOption else none

/-- What is wrong with a record that is no row of the table that starts with
`first`. -/
inductive Malformed (read : Option Cells → Cells → Except RowError α)
    (named : Bool) (first record : Record) : Prop
  | unequal (hlength : record.fields.length ≠ first.fields.length)
  | notText {error : Error} (htext : cellsOf record = .error error)
  | cells {cells : Cells} {error : RowError} (htext : cellsOf record = .ok cells)
      (hcells : read (namesIn named first) cells = .error error)

/-- One of the records of a table behind its names is no row. -/
def HasMalformedRow (read : Option Cells → Cells → Except RowError α)
    (named : Bool) (bytes : List UInt8) : Prop :=
  ∃ first rest, records bytes = first :: rest ∧
    ∃ record ∈ if named then rest else first :: rest,
      Malformed read named first record

theorem rowOf_eq_error_iff {named : Bool} {first record : Record} :
    (∃ error, rowOf (read (namesIn named first)) first.fields.length record =
        .error error) ↔
      Malformed read named first record := by
  rw [rowOf, checkLength]
  by_cases hlength : record.fields.length = first.fields.length
  · rw [if_pos hlength]
    cases htext : cellsOf record with
    | error error => exact iff_of_true ⟨error, rfl⟩ (.notText htext)
    | ok cells =>
        cases hcells : read (namesIn named first) cells with
        | error error =>
            refine iff_of_true ⟨.row record.place error, ?_⟩ (.cells htext hcells)
            show (read (namesIn named first) cells).mapError _ = _
            rw [hcells]
            rfl
        | ok row =>
            apply iff_of_false
            · rintro ⟨_, hrow⟩
              change (read (namesIn named first) cells).mapError _ = _ at hrow
              rw [hcells] at hrow
              cases hrow
            · rintro (hunequal | hnotText | ⟨hfound, hfails⟩)
              · exact hunequal hlength
              · rw [htext] at hnotText
                cases hnotText
              · cases htext.symm.trans hfound
                rw [hcells] at hfails
                cases hfails
  · rw [if_neg hlength]
    exact iff_of_true ⟨_, rfl⟩ (.unequal hlength)

/-- A table is refused exactly if one of its rows is malformed, wherever that
stands. -/
theorem read_eq_error_iff {named : Bool} {bytes : List UInt8} :
    (∃ error, Table.read read named bytes = .error error) ↔
      HasMalformedRow read named bytes := by
  rw [Table.read, HasMalformedRow]
  cases hrecords : records bytes with
  | nil =>
      apply iff_of_false
      · rintro ⟨_, hnil⟩
        cases hnil
      · rintro ⟨_, _, hcons, -⟩
        cases hcons
  | cons first rest =>
      have hrows : rowsOf read named (first :: rest) =
          (if named then rest else first :: rest).mapM
            (rowOf (read (namesIn named first)) first.fields.length) := by
        cases named <;> rfl
      rw [hrows, mapM_eq_error_iff]
      simp only [rowOf_eq_error_iff]
      constructor
      · rintro ⟨record, hrecord, hmalformed⟩
        exact ⟨first, rest, rfl, record, hrecord, hmalformed⟩
      · rintro ⟨_, _, hcons, record, hrecord, hmalformed⟩
        cases hcons
        exact ⟨record, hrecord, hmalformed⟩

end Table

/-! ## Records that are cut -/

namespace Segmentation

variable {bytes whole : List UInt8}

theorem declared_of_prefix (hfront : bytes <+: whole) (hheader : 8 ≤ bytes.length) :
    declaredVertices whole = declaredVertices bytes ∧
      declaredSegments whole = declaredSegments bytes := by
  obtain ⟨more, rfl⟩ := hfront
  constructor
  · rw [declaredVertices, List.take_append_of_le_length (by omega)]
    rfl
  · rw [declaredSegments, List.drop_append_of_le_length (by omega),
      List.take_append_of_le_length (by rw [List.length_drop]; omega)]
    rfl

/-- The counts at its start tell how long a record is. -/
theorem exists_width_of_read {limit : ℕ} {record : Record} {after : Reader}
    (hread : (read (some limit)).step (.ofList bytes) = (.ok record, after)) :
    8 ≤ bytes.length ∧ record.size ≤ bytes.length ∧ ∃ width,
      fieldWidth (declaredSegments bytes) = .ok width ∧
        record.size = 8 + 4 * wordCount (declaredVertices bytes) width := by
  obtain ⟨report, hreport, -, -, hsize, -, henough⟩ :=
    Command.SegmentationReport.exists_report_of_record hread
  obtain ⟨hwhole, width, hwidth, rfl⟩ :=
    Command.SegmentationReport.exists_width_of_ofBytes hreport
  exact ⟨hwhole, henough, width, hwidth, hsize.symm⟩

/-- A record that is cut anywhere is refused. -/
theorem exists_fault_of_cut {record : Record} {after : Reader}
    (hwhole : (read none).step (.ofList whole) = (.ok record, after))
    (hfront : bytes <+: whole) (hcut : bytes.length < record.size) (limit : ℕ) :
    ∃ fault left,
      (read (some limit)).step (.ofList bytes) = (.error fault, left) := by
  rcases hread : (read (some limit)).step (.ofList bytes) with
    ⟨fault | found, left⟩
  · exact ⟨fault, left, rfl⟩
  · obtain ⟨hheader, henough, width, hwidth, hsize⟩ := exists_width_of_read hread
    obtain ⟨hvertices, hsegments⟩ := declared_of_prefix hfront hheader
    rw [step_read_none_eq whole fun _ => Nat.le_refl _] at hwhole
    obtain ⟨-, -, width', hwidth', hsize'⟩ := exists_width_of_read hwhole
    rw [hsegments, hwidth] at hwidth'
    cases hwidth'
    rw [hvertices] at hsize'
    omega

theorem exists_fault_of_vertices {limit : ℕ} (hheader : 8 ≤ bytes.length)
    (hvertices : limit < declaredVertices bytes) :
    ∃ fault left,
      (read (some limit)).step (.ofList bytes) = (.error fault, left) := by
  obtain ⟨header, hstep, heq, -⟩ := step_header_of_le 0 hheader
  rw [← heq] at hvertices
  exact ⟨_, _, step_read_of_lt hstep hvertices⟩

theorem exists_fault_of_no_segments (limit : ℕ)
    (hsegments : declaredSegments bytes = 0) :
    ∃ fault left,
      (read (some limit)).step (.ofList bytes) = (.error fault, left) := by
  rcases hread : (read (some limit)).step (.ofList bytes) with
    ⟨fault | found, left⟩
  · exact ⟨fault, left, rfl⟩
  · obtain ⟨-, -, width, hwidth, -⟩ := exists_width_of_read hread
    rw [hsegments] at hwidth
    cases hwidth

end Segmentation

namespace PersistenceIndex

/-- An index that is cut anywhere is refused: in a front of it that is an index,
reading would find all of it. -/
theorem exists_fault_of_cut {bytes whole : List UInt8} {decoded : DecodedIndex}
    {after : Reader} (hwhole : read.step (.ofList whole) = (.ok decoded, after))
    (hfront : bytes <+: whole) (hcut : bytes.length < decoded.size) :
    ∃ fault left, read.step (.ofList bytes) = (.error fault, left) := by
  obtain ⟨rest, rfl⟩ := hfront
  rcases takeLists_starts_or_stops bytes with
    ⟨index, mappingCount, constraintCount, more, hmapping, hconstraints,
      rfl⟩ | hstop
  · have hstored := consumes_read hmapping.symm hconstraints.symm (more ++ rest) 0
    rw [← List.append_assoc, ← Reader.ofList_eq_holding, hwhole] at hstored
    obtain ⟨hdecoded, -⟩ := Prod.mk.inj hstored
    obtain rfl := Except.ok.inj hdecoded
    exact absurd hcut (Nat.not_lt_of_le (List.prefix_append _ more).length_le)
  · obtain ⟨_, _, _, -, -, -, hstep⟩ := stopsIn_read (hstop 0)
    exact ⟨_, _, hstep⟩

end PersistenceIndex

namespace Command

open PackedTopology.Command.Task

/-! ## Parts of a command that fail -/

namespace Task

variable {α β : Type}

/-- The part ends with a complaint and leaves the directory as it is. -/
def Fails (task : Task α) (directory : Directory) : Prop :=
  ∃ complaint, ComesTo task directory (.error complaint) directory ""

variable {directory : Directory} {path : String}

theorem Fails.bind {first : Task α} (hfirst : Fails first directory)
    (next : α → Task β) : Fails (first >>= next) directory := by
  obtain ⟨complaint, hcomes⟩ := hfirst
  exact ⟨complaint, hcomes.bind_error⟩

theorem fails_bind {first : Task α} {next : α → Task β}
    {result : Except Complaint α}
    (hfirst : ComesTo first directory result directory "")
    (hnext : ∀ value, Fails (next value) directory) :
    Fails (first >>= next) directory := by
  cases result with
  | error complaint => exact ⟨complaint, hfirst.bind_error⟩
  | ok value =>
      obtain ⟨complaint, hcomes⟩ := hnext value
      exact ⟨complaint, hfirst.bind hcomes⟩

theorem fails_openInput {error : DeviceError}
    (hmissing : directory.openInput path = .error error) :
    Fails (openInput path) directory := by
  have hopen := comesTo_openInput directory path
  rw [hmissing] at hopen
  exact ⟨_, hopen⟩

/-- The part leaves every directory as it is, however it ends. -/
def Keeps (task : Task α) : Prop :=
  ∀ progress, (task.run progress).2.directory = progress.directory

theorem keeps_pure (value : α) : Keeps (pure value : Task α) :=
  fun _ => rfl

theorem keeps_ensure {ε : Type} (complaint : ε → Complaint)
    (result : Except ε α) : Keeps (ensure complaint result) := by
  cases result <;> exact fun _ => rfl

theorem Keeps.bind {first : Task α} {next : α → Task β} (hfirst : Keeps first)
    (hnext : ∀ value, Keeps (next value)) : Keeps (first >>= next) := by
  intro progress
  have hafter := hfirst progress
  show (ExceptT.bindCont next (first.run progress).1
    (first.run progress).2).2.directory = _
  rw [← hafter]
  rcases first.run progress with ⟨complaint | value, after⟩
  · rfl
  · exact hnext value after

theorem keeps_log (level : LogLevel) (source text : String)
    (numbers : List (String × ℕ)) : Keeps (log level source text numbers) :=
  fun _ => rfl

theorem keeps_print (text : String) : Keeps (print text) :=
  fun _ => rfl

theorem keeps_get : Keeps (get : Task Progress) :=
  fun _ => rfl

end Task

section

variable {α : Type} {directory : Directory} {path : String}

theorem keeps_readFrom (operation path : String) (action : Action Reader α) :
    Keeps (readFrom operation path action) :=
  (keeps_get.bind fun _ => keeps_ensure _ _).bind fun _ => keeps_ensure _ _

theorem keeps_inspect (input : String) (json : Bool) :
    Keeps (inspect input json) :=
  keeps_get.bind fun _ => (keeps_ensure _ _).bind fun _ =>
    (keeps_readFrom _ _ _).bind fun _ => (keeps_ensure _ _).bind fun _ =>
      keeps_print _

theorem keeps_inspectIndex (input : String) (json : Bool) :
    Keeps (inspectIndex input json) :=
  ((keeps_readFrom _ _ _).bind fun index => (keeps_log _ _ _ _).bind fun _ =>
    keeps_pure index).bind fun _ => keeps_print _

theorem fails_readFrom_of_fault {operation : String} {action : Action Reader α}
    {bytes : List UInt8} {fault : Fault} {left : Reader}
    (hopen : directory.openInput path = .ok (.ofList bytes))
    (hfault : action.step (.ofList bytes) = (.error fault, left)) :
    Fails (readFrom operation path action) directory := by
  have hcomes := comesTo_readFrom_of_source operation action hopen
  rw [← Reader.ofList, hfault] at hcomes
  exact ⟨_, hcomes⟩

theorem fails_readTable_of_row {settings : Settings}
    {read : Option Table.Cells → Table.Cells → Except Table.RowError α}
    {bytes : List UInt8} (hopen : directory.openInput path = .ok (.ofList bytes))
    (hrow : Table.HasMalformedRow read settings.csvHeaders bytes) :
    Fails (readTable read settings path) directory := by
  obtain ⟨error, hread⟩ := Table.read_eq_error_iff.mpr hrow
  have htable := @comesTo_readTable_of_source _ _ _ read settings _ hopen rfl
  change ComesTo _ _ ((Table.read read settings.csvHeaders bytes).mapError _) _ _
    at htable
  rw [hread] at htable
  exact ⟨_, htable⟩

end

/-! ## What cannot be read -/

/-- A table that is missing or has a row that cannot be read. -/
inductive BadTable {α : Type}
    (read : Option Table.Cells → Table.Cells → Except Table.RowError α)
    (directory : Directory) (settings : Settings) (path : String) : Prop
  | missing {error : DeviceError} (hopen : directory.openInput path = .error error)
  | malformed {bytes : List UInt8}
      (hopen : directory.openInput path = .ok (.ofList bytes))
      (hrow : Table.HasMalformedRow read settings.csvHeaders bytes)

/-- A request whose input cannot be read. -/
inductive BadInput (directory : Directory) (settings : Settings) : Request → Prop
  | missingRecord {input output : String} {error : DeviceError}
      (hopen : directory.openInput input = .error error) :
      BadInput directory settings (.unpack input output)
  | cutRecord {input output : String} {bytes whole : List UInt8}
      {record : Segmentation.Record} {after : Reader}
      (hopen : directory.openInput input = .ok (.ofList bytes))
      (hwhole : (Segmentation.read none).step (.ofList whole) = (.ok record, after))
      (hfront : bytes <+: whole) (hcut : bytes.length < record.size) :
      BadInput directory settings (.unpack input output)
  | tooManyVertices {input output : String} {bytes : List UInt8}
      (hopen : directory.openInput input = .ok (.ofList bytes))
      (hheader : 8 ≤ bytes.length)
      (hlimit : settings.maxVertices < Segmentation.declaredVertices bytes) :
      BadInput directory settings (.unpack input output)
  | noSegments {input output : String} {bytes : List UInt8}
      (hopen : directory.openInput input = .ok (.ofList bytes))
      (hheader : 8 ≤ bytes.length)
      (hnone : Segmentation.declaredSegments bytes = 0) :
      BadInput directory settings (.unpack input output)
  | missingIndex {input mapping constraints : String} {error : DeviceError}
      (hopen : directory.openInput input = .error error) :
      BadInput directory settings (.unpackIndex input mapping constraints)
  | cutIndex {input mapping constraints : String} {bytes whole : List UInt8}
      {decoded : DecodedIndex} {after : Reader}
      (hopen : directory.openInput input = .ok (.ofList bytes))
      (hwhole : PersistenceIndex.read.step (.ofList whole) = (.ok decoded, after))
      (hfront : bytes <+: whole) (hcut : bytes.length < decoded.size) :
      BadInput directory settings (.unpackIndex input mapping constraints)
  | ids {input output : String} {segments : ℕ}
      (htable : BadTable (fun _ cells => Table.readId cells) directory settings
        input) :
      BadInput directory settings (.pack input output segments)
  | mapping {mapping constraints output : String}
      (htable : BadTable Table.readMappingEntry directory settings mapping) :
      BadInput directory settings (.packIndex mapping constraints output)
  | constraints {mapping constraints output : String}
      (htable : BadTable Table.readConstraint directory settings constraints) :
      BadInput directory settings (.packIndex mapping constraints output)

section

variable {directory : Directory} {settings : Settings}

theorem BadTable.fails {α : Type}
    {read : Option Table.Cells → Table.Cells → Except Table.RowError α}
    {path : String} (htable : BadTable read directory settings path) :
    Fails (readTable read settings path) directory := by
  cases htable with
  | missing hopen => exact (fails_openInput hopen).bind _
  | malformed hopen hrow => exact fails_readTable_of_row hopen hrow

theorem BadInput.fails {request : Request}
    (hinput : BadInput directory settings request) :
    Fails (perform settings request) directory := by
  cases hinput with
  | missingRecord hopen => exact ((fails_openInput hopen).bind _).bind _
  | cutRecord hopen hwhole hfront hcut =>
      obtain ⟨fault, left, hread⟩ :=
        Segmentation.exists_fault_of_cut hwhole hfront hcut settings.maxVertices
      exact (fails_readFrom_of_fault hopen hread).bind _
  | tooManyVertices hopen hheader hlimit =>
      obtain ⟨fault, left, hread⟩ :=
        Segmentation.exists_fault_of_vertices hheader hlimit
      exact (fails_readFrom_of_fault hopen hread).bind _
  | noSegments hopen _ hnone =>
      obtain ⟨fault, left, hread⟩ :=
        Segmentation.exists_fault_of_no_segments settings.maxVertices hnone
      exact (fails_readFrom_of_fault hopen hread).bind _
  | missingIndex hopen => exact (((fails_openInput hopen).bind _).bind _).bind _
  | cutIndex hopen hwhole hfront hcut =>
      obtain ⟨fault, left, hread⟩ :=
        PersistenceIndex.exists_fault_of_cut hwhole hfront hcut
      exact ((fails_readFrom_of_fault hopen hread).bind _).bind _
  | ids htable => exact htable.fails.bind _
  | mapping htable => exact htable.fails.bind _
  | @constraints mapping _ _ htable =>
      obtain ⟨result, hmapping⟩ := @exists_comesTo_readTable _
        Table.readMappingEntry settings directory mapping
      exact fails_bind hmapping fun _ => htable.fails.bind _

theorem runWith_of_fails {logVariable : Option String} {invocation : Invocation}
    (hfails : Fails (perform settings invocation.request) directory) :
    let outcome := runWith directory logVariable invocation settings
    outcome.exit = Outcome.failureExit ∧ outcome.directory = directory := by
  obtain ⟨complaint, hcomes⟩ := hfails
  obtain ⟨hexit, -, -, hafter⟩ := runWith_of_error rfl hcomes
  exact ⟨hexit, hafter⟩

theorem runWith_of_keeps {logVariable : Option String} {invocation : Invocation}
    (hkeeps : Keeps (perform settings invocation.request)) :
    (runWith directory logVariable invocation settings).directory = directory :=
  hkeeps ⟨directory, "", []⟩

end

/-! ## Settings -/

/-- The settings that an invocation runs with. -/
def settingsFor (directory : Directory) (invocation : Invocation) :
    Except Complaint Settings :=
  match invocation.settingsPath with
  | none => .ok Settings.standard
  | some path => readSettings directory path

/-- A path to settings that cannot be read, are no text, or are rejected. -/
inductive BadSettings (directory : Directory) (path : String) : Prop
  | unreadable {error : DeviceError} (hread : directory.readFile path = .error error)
  | notText {bytes : List UInt8} {valid : ℕ}
      (hread : directory.readFile path = .ok bytes)
      (htext : Text.decode bytes = .error valid)
  | rejected {bytes : List UInt8} {text : List Char} {fault : Fault}
      (hread : directory.readFile path = .ok bytes)
      (htext : Text.decode bytes = .ok text)
      (hsettings : Settings.ofText (String.ofList text) = .error fault)

variable {directory : Directory} {invocation : Invocation}
  {logVariable : Option String} {arguments : List String}

theorem BadSettings.exists_complaint {path : String}
    (hbad : BadSettings directory path) :
    ∃ complaint, readSettings directory path = .error complaint := by
  rw [readSettings]
  cases hbad with
  | unreadable hread => exact ⟨_, by rw [hread]; rfl⟩
  | notText hread htext =>
      refine ⟨Complaint.ofFault "loading config" (.device .notText), ?_⟩
      simp only [hread, Except.mapError, bind, Except.bind, htext]
      rfl
  | @rejected _ _ fault hread htext hsettings =>
      refine ⟨Complaint.ofFault "loading config" fault, ?_⟩
      simp only [hread, Except.mapError, bind, Except.bind, htext, hsettings]

theorem run_of_arguments
    (harguments : Invocation.ofArguments arguments = .ok invocation) :
    run directory logVariable arguments =
      match settingsFor directory invocation with
      | .error complaint =>
          .nothing Outcome.failureExit (some complaint.text) directory
      | .ok settings => runWith directory logVariable invocation settings := by
  rw [run, harguments]
  rfl

/-! ## Sequences of runs -/

/-- One run of the program. -/
structure Call where
  logVariable : Option String
  arguments : List String

def Call.outcome (call : Call) (directory : Directory) : Outcome :=
  run directory call.logVariable call.arguments

/-- The directory that runs leave, one after the other. -/
def afterCalls (directory : Directory) : List Call → Directory
  | [] => directory
  | call :: calls => afterCalls (call.outcome directory).directory calls

/-- A run that cannot read its settings or its input. -/
inductive FailsToRead (directory : Directory) (call : Call) : Prop
  | settings {invocation : Invocation} {path : String}
      (harguments : Invocation.ofArguments call.arguments = .ok invocation)
      (hpath : invocation.settingsPath = some path)
      (hbad : BadSettings directory path)
  | input {invocation : Invocation} {settings : Settings}
      (harguments : Invocation.ofArguments call.arguments = .ok invocation)
      (hsettings : settingsFor directory invocation = .ok settings)
      (hbad : BadInput directory settings invocation.request)

/-- A run that is asked for a report on a file. -/
def Inspects (call : Call) : Prop :=
  ∃ invocation input json,
    Invocation.ofArguments call.arguments = .ok invocation ∧
      (invocation.request = .inspect input json ∨
        invocation.request = .inspectIndex input json)

variable {call : Call} {calls : List Call}

theorem FailsToRead.outcome (hfails : FailsToRead directory call) :
    (call.outcome directory).exit = Outcome.failureExit ∧
      (call.outcome directory).directory = directory := by
  cases hfails with
  | @settings invocation path harguments hpath hbad =>
      obtain ⟨complaint, hread⟩ := hbad.exists_complaint
      have hsettings : settingsFor directory invocation = .error complaint := by
        rw [settingsFor, hpath]
        exact hread
      rw [Call.outcome, run_of_arguments harguments, hsettings]
      exact ⟨rfl, rfl⟩
  | input harguments hsettings hbad =>
      rw [Call.outcome, run_of_arguments harguments, hsettings]
      exact runWith_of_fails hbad.fails

theorem Inspects.outcome (hinspects : Inspects call) :
    (call.outcome directory).directory = directory := by
  obtain ⟨invocation, input, json, harguments, hrequest⟩ := hinspects
  rw [Call.outcome, run_of_arguments harguments]
  cases settingsFor directory invocation with
  | error complaint => rfl
  | ok settings =>
      apply runWith_of_keeps
      rcases hrequest with hrequest | hrequest <;> rw [hrequest]
      · exact keeps_inspect input json
      · exact keeps_inspectIndex input json

theorem afterCalls_eq_self
    (hidle : ∀ call ∈ calls, FailsToRead directory call ∨ Inspects call) :
    afterCalls directory calls = directory := by
  induction calls with
  | nil => rfl
  | cons call calls ih =>
      have hcall : (call.outcome directory).directory = directory := by
        rcases hidle call List.mem_cons_self with hfails | hinspects
        · exact hfails.outcome.2
        · exact hinspects.outcome
      rw [afterCalls, hcall]
      exact ih fun other hother => hidle other (List.mem_cons_of_mem _ hother)

/-- In any sequence of runs, one that cannot read its settings or its input ends
with the failure code and leaves the directory as it found it, with the same
files and no others; one that inspects leaves it so however it ends.  Runs of
these kinds alone change nothing. -/
theorem failed_reading_changes_nothing (directory : Directory)
    (calls : List Call) :
    (∀ earlier call later, calls = earlier ++ call :: later →
      let before := afterCalls directory earlier
      (FailsToRead before call →
        (call.outcome before).exit = 1 ∧
          (call.outcome before).directory = before) ∧
      (Inspects call → (call.outcome before).directory = before)) ∧
    ((∀ call ∈ calls, FailsToRead directory call ∨ Inspects call) →
      afterCalls directory calls = directory) := by
  refine ⟨?_, afterCalls_eq_self⟩
  intro earlier call later _ before
  exact ⟨FailsToRead.outcome, Inspects.outcome⟩

/-- A record that lacks its last byte, a second table whose last value is no
number, a look at the cut record, and settings without any vertices. -/
theorem failed_reading_changes_nothing_four_runs :
    let directory : Directory :=
      ⟨[(["cut.seg"], .file [2, 0, 0, 0, 8, 0, 0, 0, 112, 0, 0]),
        (["m.csv"], .file (Text.encode "1,2\n")),
        (["c.csv"], .file (Text.encode "1,2,0\n2,x,1\n")),
        (["none.json"], .file (Text.encode "\x7b\"max_vertices\":0\x7d")),
        (["out"], .file [1, 2, 3])], [], []⟩
    let unpack : Call := ⟨none, ["unpack", "cut.seg", "out"]⟩
    let packIndex : Call := ⟨none, ["pack-index", "m.csv", "c.csv", "out"]⟩
    let inspect : Call := ⟨none, ["inspect", "cut.seg"]⟩
    let configured : Call :=
      ⟨none, ["--config", "none.json", "unpack-index", "out", "m.csv", "new.csv"]⟩
    let calls := [unpack, packIndex, inspect, configured]
    (unpack.outcome directory).exit = 1 ∧
      (packIndex.outcome directory).exit = 1 ∧
      (configured.outcome directory).exit = 1 ∧
      afterCalls directory calls = directory := by
  intro directory unpack packIndex inspect configured calls
  have hwhole : ((Segmentation.read none).step
      (.ofList [2, 0, 0, 0, 8, 0, 0, 0, 112, 0, 0, 0])).1 =
        .ok ⟨⟨2, 8⟩, [0, 7], 12⟩ := by
    decide +kernel
  have hunpack : FailsToRead directory unpack := by
    have harguments : Invocation.ofArguments unpack.arguments =
        .ok ⟨none, false, false, .unpack "cut.seg" "out"⟩ := by
      decide +kernel
    exact .input harguments rfl
      (.cutRecord rfl (Prod.ext hwhole rfl) (by decide) (by decide))
  have hpackIndex : FailsToRead directory packIndex := by
    have harguments : Invocation.ofArguments packIndex.arguments =
        .ok ⟨none, false, false, .packIndex "m.csv" "c.csv" "out"⟩ := by
      decide +kernel
    have hread : Table.read Table.readConstraint false
        (Text.encode "1,2,0\n2,x,1\n") =
          .error (.row ⟨1, 2, 6⟩ (.cell 1 .invalidScalar)) := by
      decide +kernel
    exact .input harguments rfl
      (.constraints (.malformed rfl (Table.read_eq_error_iff.mp ⟨_, hread⟩)))
  have hconfigured : FailsToRead directory configured := by
    have harguments : Invocation.ofArguments configured.arguments =
        .ok ⟨some "none.json", false, false,
          .unpackIndex "out" "m.csv" "new.csv"⟩ := by
      decide +kernel
    have htext : Text.decode (Text.encode "\x7b\"max_vertices\":0\x7d") =
        .ok "\x7b\"max_vertices\":0\x7d".toList := by
      decide +kernel
    have hsettings : Settings.ofText
        (String.ofList "\x7b\"max_vertices\":0\x7d".toList) =
          .error (.settings "max_vertices must be positive") := by
      decide +kernel
    exact .settings harguments rfl (.rejected rfl htext hsettings)
  have hinspect : Inspects inspect := by
    have harguments : Invocation.ofArguments inspect.arguments =
        .ok ⟨none, false, false, .inspect "cut.seg" false⟩ := by
      decide +kernel
    exact ⟨_, "cut.seg", false, harguments, .inl rfl⟩
  have hexit : ∀ call, FailsToRead directory call →
      (call.outcome directory).exit = 1 := by
    intro call hcall
    obtain ⟨hruns, -⟩ := failed_reading_changes_nothing directory [call]
    exact ((hruns [] call [] rfl).1 hcall).1
  refine ⟨hexit _ hunpack, hexit _ hpackIndex, hexit _ hconfigured, ?_⟩
  apply (failed_reading_changes_nothing directory calls).2
  simp only [calls, List.forall_mem_cons]
  exact ⟨.inl hunpack, .inl hpackIndex, .inr hinspect, .inl hconfigured, by simp⟩

end Command

end PackedTopology
