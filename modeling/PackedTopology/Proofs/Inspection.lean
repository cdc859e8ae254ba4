import PackedTopology.Proofs.Reencoding
import PackedTopology.Proofs.SegmentationCommands

/-!
# Inspecting a file

The numbers of a printed report can be told from its text, so a report stands
for what is printed.  What it says follows from the header alone: the words that
the fields reach into are counted, not read.  Unpacking reads just these words,
and therefore succeeds exactly when the file has them all.
-/

namespace PackedTopology.Command

/-! ## Printed numbers -/

/-- Whether characters go on after a number without another digit. -/
def EndsNumber (rest : List Char) : Prop :=
  rest.head?.any (fun c => !c.isDigit) = true

/-- Decimal numbers, each with a text behind it. -/
def interleaved : List ℕ → List String → List Char
  | number :: numbers, part :: parts =>
      Nat.toDigits 10 number ++ (part.toList ++ interleaved numbers parts)
  | _, _ => []

theorem EndsNumber.head {rest : List Char} (hrest : EndsNumber rest) :
    rest.head?.all (fun c => !c.isDigit) = true := by
  cases rest with
  | nil => rfl
  | cons c rest => exact hrest

theorem EndsNumber.append {part more : List Char} (hpart : EndsNumber part) :
    EndsNumber (part ++ more) := by
  cases part with
  | nil => cases hpart
  | cons c part => exact hpart

theorem interleaved_inj {parts : List String}
    (hparts : ∀ part ∈ parts, EndsNumber part.toList) {left right : List ℕ}
    (hleft : left.length = parts.length) (hright : right.length = parts.length)
    (heq : interleaved left parts = interleaved right parts) : left = right := by
  induction parts generalizing left right with
  | nil =>
      rw [List.eq_nil_of_length_eq_zero hleft, List.eq_nil_of_length_eq_zero hright]
  | cons part parts ih =>
      obtain ⟨m, left, rfl⟩ := List.exists_cons_of_length_eq_add_one hleft
      obtain ⟨n, right, rfl⟩ := List.exists_cons_of_length_eq_add_one hright
      -- The part ends the number in front of it, so the first numbers agree.
      have hpart := hparts part List.mem_cons_self
      obtain ⟨rfl, hrest⟩ := Text.toDigits_append_inj hpart.append.head
        hpart.append.head heq
      have hends : ∀ part ∈ parts, EndsNumber part.toList :=
        fun other hother => hparts other (List.mem_cons_of_mem _ hother)
      rw [ih hends (Nat.succ.inj hleft) (Nat.succ.inj hright)
        (List.append_cancel_left hrest)]

namespace SegmentationReport

/-- What stands behind the numbers of a report for a reader. -/
def textParts : List String :=
  ["\n" ++ "segments:         ", "\n" ++ "bits per segment: ",
    "\n" ++ "words:            ", "\n" ++ "bytes:            ", " (expected ",
    ")\n"]

theorem endsNumber_of_mem_textParts :
    ∀ part ∈ textParts, EndsNumber part.toList := by
  unfold EndsNumber
  decide

theorem toList_text (report : SegmentationReport) :
    report.text.toList = "vertices:         ".toList ++
      interleaved [report.vertices, report.segments, report.width, report.words,
        report.fileBytes, report.expectedBytes] textParts := by
  unfold text
  simp only [String.toList_append, toString, Nat.repr, String.toList_ofList,
    textParts, interleaved, List.append_assoc, List.append_nil]

/-- What stands in front of the value of a member that is not the first one. -/
def memberFront (name : String) : String :=
  ",\n" ++ ("  \"" ++ (name ++ "\": "))

def objectParts : List String :=
  ["expected_bytes", "file_bytes", "segments", "vertices", "words"].map
    memberFront ++ ["\n\x7d\n"]

theorem endsNumber_of_mem_objectParts :
    ∀ part ∈ objectParts, EndsNumber part.toList := by
  unfold EndsNumber
  decide

theorem toList_object (report : SegmentationReport) :
    report.object.toList =
      ("\x7b\n" ++ ("  \"" ++ ("bits_per_segment" ++ "\": "))).toList ++
        interleaved [report.width, report.expectedBytes, report.fileBytes,
          report.segments, report.vertices, report.words] objectParts := by
  unfold object objectText
  simp only [List.map_cons, List.map_nil, String.toList_append,
    String.toList_intercalate, List.intercalate_cons_cons,
    List.intercalate_singleton, toString, Nat.repr, String.toList_ofList,
    objectParts, memberFront, interleaved, List.cons_append, List.nil_append,
    List.append_assoc, List.append_nil]

/-- A report can be told from what is printed of it. -/
theorem shown_injective {left right : SegmentationReport} {json : Bool}
    (hshown : left.shown json = right.shown json) : left = right := by
  have hlists := congrArg String.toList hshown
  cases json with
  | false =>
      rw [shown, shown, if_neg Bool.false_ne_true, if_neg Bool.false_ne_true,
        toList_text, toList_text] at hlists
      have hnumbers := interleaved_inj endsNumber_of_mem_textParts rfl rfl
        (List.append_cancel_left hlists)
      cases left
      cases right
      simp_all
  | true =>
      rw [shown, shown, if_pos rfl, if_pos rfl, toList_object, toList_object]
        at hlists
      have hnumbers := interleaved_inj endsNumber_of_mem_objectParts rfl rfl
        (List.append_cancel_left hlists)
      cases left
      cases right
      simp_all

/-! ## What a header foretells -/

section

variable {header : Segmentation.Header} {width : ℕ}

theorem recordSize_of_width
    (hwidth : fieldWidth header.segments.toNat = .ok width) :
    header.recordSize =
      .ok (8 + 4 * wordCount header.vertices.toNat width) := by
  rw [Segmentation.Header.recordSize, Segmentation.Header.words,
    Segmentation.Header.width, hwidth]
  rfl

theorem ofHeader_of_width
    (hwidth : fieldWidth header.segments.toNat = .ok width) (fileBytes : ℕ) :
    ofHeader header fileBytes =
      .ok ⟨header.vertices.toNat, header.segments.toNat, width,
        wordCount header.vertices.toNat width,
        8 + 4 * wordCount header.vertices.toNat width, fileBytes⟩ := by
  rw [ofHeader, recordSize_of_width hwidth, Segmentation.Header.words,
    Segmentation.Header.width, hwidth]
  rfl

theorem ofHeader_of_error {fault : Fault}
    (hwidth : fieldWidth header.segments.toNat = .error fault) (fileBytes : ℕ) :
    ofHeader header fileBytes = .error fault := by
  rw [ofHeader, Segmentation.Header.width, hwidth]
  rfl

/-- The largest counts of a header need less than half of what a 64-bit number
can hold. -/
theorem expectedBytes_lt (hwidth : width ≤ 32) (vertices : UInt32) :
    vertices.toNat * width < 2 ^ 64 ∧
      8 + 4 * wordCount vertices.toNat width < 2 ^ 64 := by
  have hbits : vertices.toNat * width ≤ 2 ^ 32 * 32 :=
    Nat.mul_le_mul vertices.toNat_lt.le hwidth
  rw [wordCount, wordBits]
  omega

end

section

variable {bytes : List UInt8} {limit : ℕ}

/-- What is reported, if anything is. -/
theorem exists_width_of_ofBytes {report : SegmentationReport}
    (hreport : ofBytes bytes = .ok report) :
    8 ≤ bytes.length ∧ ∃ width,
      fieldWidth (Segmentation.declaredSegments bytes) = .ok width ∧
        report = ⟨Segmentation.declaredVertices bytes,
          Segmentation.declaredSegments bytes, width,
          wordCount (Segmentation.declaredVertices bytes) width,
          8 + 4 * wordCount (Segmentation.declaredVertices bytes) width,
          bytes.length⟩ := by
  rcases Nat.lt_or_ge bytes.length 8 with hshort | hwhole
  · obtain ⟨offset, after, hheader⟩ := Segmentation.step_header_of_lt 0 hshort
    rw [ofBytes_of_error (congrArg Prod.fst hheader)] at hreport
    cases hreport
  obtain ⟨header, hheader, hvertices, hsegments⟩ :=
    Segmentation.step_header_of_le 0 hwhole
  rw [ofBytes_of_ok (congrArg Prod.fst hheader)] at hreport
  rw [← hvertices, ← hsegments]
  refine ⟨hwhole, ?_⟩
  cases hwidth : fieldWidth header.segments.toNat with
  | error fault =>
      rw [ofHeader_of_error hwidth] at hreport
      cases hreport
  | ok width =>
      rw [ofHeader_of_width hwidth] at hreport
      exact ⟨width, rfl, (Except.ok.inj hreport).symm⟩

/-- Whatever record is found, the header foretells it. -/
theorem exists_report_of_record {record : Segmentation.Record} {after : Reader}
    (hread : (Segmentation.read (some limit)).step (.ofList bytes) =
      (.ok record, after)) :
    ∃ report, ofBytes bytes = .ok report ∧
      report.vertices = record.ids.length ∧ report.vertices ≤ limit ∧
      report.expectedBytes = record.size ∧ report.fileBytes = bytes.length ∧
      record.size ≤ bytes.length := by
  obtain ⟨width, payload, more, hcut, rfl, hsize, -⟩ :=
    Segmentation.exists_payload_of_read hread
  have hheader := Segmentation.consumes_header record.header
    (Segmentation.storedWords payload ++ more) 0
  rw [← List.append_assoc, ← Reader.ofList_eq_holding] at hheader
  rw [ofBytes_of_ok (congrArg Prod.fst hheader), ofHeader_of_width hcut.width_eq]
  refine ⟨_, rfl, ?_, ?_, ?_, rfl, ?_⟩
  · rw [hcut.ids_eq, Segmentation.length_fieldsOf]
  · by_contra hlimit
    rw [Segmentation.step_read_of_lt hheader (Nat.lt_of_not_le hlimit)] at hread
    cases hread
  · rw [hsize, hcut.length_eq]
    rfl
  · rw [List.length_append, List.length_append, Segmentation.length_storedHeader,
      Segmentation.length_storedWords, hsize]
    exact Nat.le_add_right _ _

/-- What is foretold is found, if it is within the limit and within the file. -/
theorem exists_record_of_report {report : SegmentationReport}
    (hreport : ofBytes bytes = .ok report) (hlimit : report.vertices ≤ limit)
    (henough : report.expectedBytes ≤ report.fileBytes) :
    ∃ record after, (Segmentation.read (some limit)).step (.ofList bytes) =
      (.ok record, after) := by
  obtain ⟨hwhole, width, hwidth, rfl⟩ := exists_width_of_ofBytes hreport
  obtain ⟨header, -, -, hread⟩ :=
    Segmentation.step_read_of_width hwhole hlimit hwidth
  rw [if_pos (Nat.le_sub_of_add_le' henough)] at hread
  exact ⟨_, _, hread⟩

end

end SegmentationReport

/-! ## The commands agree -/

/-- A run that prints a report and does not fail. -/
structure Outcome.Reports (outcome : Outcome) (json : Bool)
    (report : SegmentationReport) : Prop where
  exit_eq : outcome.exit = 0
  printed_eq : outcome.printed = report.shown json

section

variable {directory : Directory} {logVariable : Option String}
  {settings : Settings} {unpacking inspecting : Invocation}
  {input output : String} {json : Bool} {bytes : List UInt8}
  {report : SegmentationReport}

theorem reports_iff (hinspect : inspecting.request = .inspect input json)
    (hfile : directory.find input = .ok (.file bytes)) :
    (runWith directory logVariable inspecting settings).Reports json report ↔
      SegmentationReport.ofBytes bytes = .ok report := by
  have hcomes := comesTo_inspect json hfile
  cases hbytes : SegmentationReport.ofBytes bytes with
  | error fault =>
      rw [hbytes] at hcomes
      refine ⟨fun hreports => ?_, nofun⟩
      exact absurd hreports.exit_eq (exit_ne_zero_of_error hinspect hcomes)
  | ok found =>
      rw [hbytes] at hcomes
      obtain ⟨hexit, hprinted, -⟩ := runWith_of_ok hinspect hcomes
      constructor
      · intro hreports
        have hshown := hprinted.symm.trans hreports.printed_eq
        rw [SegmentationReport.shown_injective hshown]
      · intro hfound
        cases hfound
        exact ⟨hexit, hprinted⟩

theorem unpack_exit_iff_record (hunpack : unpacking.request = .unpack input output)
    (hfile : directory.find input = .ok (.file bytes))
    (hwritable : directory.Writable output) :
    (runWith directory logVariable unpacking settings).exit = 0 ↔
      ∃ record after,
        (Segmentation.read (some settings.maxVertices)).step (.ofList bytes) =
          (.ok record, after) := by
  rcases hread : (Segmentation.read (some settings.maxVertices)).step
    (.ofList bytes) with ⟨fault | record, after⟩
  · have hcomes := comesTo_unpack_of_error output hfile hread
    constructor
    · intro hexit
      exact absurd hexit (exit_ne_zero_of_error hunpack hcomes)
    · rintro ⟨_, _, hrecord⟩
      cases hrecord
  · obtain ⟨written, haccepts⟩ :=
      hwritable.exists_accepts (Table.idTable settings.csvHeaders record.ids)
    have hcomes := (delivers_unpack output (findsRecord_of_file hfile hread)).comesTo
      written (Directory.acceptsAll_singleton_iff.mpr haccepts)
    exact ⟨fun _ => ⟨record, after, rfl⟩,
      fun _ => (runWith_of_ok hunpack hcomes).1⟩

theorem unpack_exit_iff_report
    (hunpack : unpacking.request = .unpack input output)
    (hfile : directory.find input = .ok (.file bytes))
    (hwritable : directory.Writable output) :
    (runWith directory logVariable unpacking settings).exit = 0 ↔
      ∃ report, SegmentationReport.ofBytes bytes = .ok report ∧
        report.vertices ≤ settings.maxVertices ∧
        report.expectedBytes ≤ report.fileBytes := by
  rw [unpack_exit_iff_record hunpack hfile hwritable]
  constructor
  · rintro ⟨record, after, hread⟩
    obtain ⟨report, hreport, -, hlimit, hsize, hbytes, henough⟩ :=
      SegmentationReport.exists_report_of_record hread
    refine ⟨report, hreport, hlimit, ?_⟩
    rwa [hsize, hbytes]
  · rintro ⟨report, hreport, hlimit, henough⟩
    exact SegmentationReport.exists_record_of_report hreport hlimit henough

/-- What is unpacked has as many ids as are reported. -/
theorem exists_ids_of_unpack (hunpack : unpacking.request = .unpack input output)
    (hfile : directory.find input = .ok (.file bytes)) {place : Place}
    (hplace : directory.FileAt output place)
    (hexit : (runWith directory logVariable unpacking settings).exit = 0)
    (hreport : SegmentationReport.ofBytes bytes = .ok report) :
    ∃ ids, (runWith directory logVariable unpacking settings).Writes directory
        output place (Table.idTable settings.csvHeaders ids) ∧
      ids.length = report.vertices := by
  obtain ⟨record, after, hread⟩ :=
    (unpack_exit_iff_record hunpack hfile hplace.writable).mp hexit
  obtain ⟨found, hfound, hvertices, -⟩ :=
    SegmentationReport.exists_report_of_record hread
  obtain rfl : found = report := Except.ok.inj (hfound.symm.trans hreport)
  exact ⟨record.ids, run_unpack hunpack hfile hread hplace, hvertices.symm⟩

/-- There is no byte too many or too few in the stored form of a record. -/
theorem exists_report_of_stores {ids : List UInt32} {segments : ℕ}
    {record : Segmentation.Record}
    (hstores : Segmentation.Stores ids segments bytes record) :
    ∃ report, SegmentationReport.ofBytes bytes = .ok report ∧
      report.fileBytes = report.expectedBytes := by
  obtain ⟨after, hread⟩ := hstores.exists_step_read le_rfl
  obtain ⟨report, hreport, -, -, hsize, hbytes, -⟩ :=
    SegmentationReport.exists_report_of_record hread
  refine ⟨report, hreport, ?_⟩
  rw [hbytes, hsize, hstores.length_eq]

end

/-- Inspecting a file tells whether unpacking it succeeds, and how many ids are
written then.  It finds no byte too many or too few in a file that was packed,
and the sizes that it works out fit a 64-bit number. -/
theorem inspect_foretells_unpack :
    (∀ (directory : Directory) (logVariable : Option String)
        (settings : Settings) (unpacking inspecting : Invocation)
        (input output : String) (json : Bool) (bytes : List UInt8),
      unpacking.request = .unpack input output →
      inspecting.request = .inspect input json →
      directory.find input = .ok (.file bytes) →
      directory.Writable output →
      let unpacked := runWith directory logVariable unpacking settings
      let inspected := runWith directory logVariable inspecting settings
      (unpacked.exit = 0 ↔
        ∃ report, inspected.Reports json report ∧
          report.vertices ≤ settings.maxVertices ∧
          report.expectedBytes ≤ report.fileBytes) ∧
      (∀ report, unpacked.exit = 0 → inspected.Reports json report →
        (∃ device, directory.find output = .ok (.device device)) ∨
        ∃ csv ids, unpacked.directory.find output = .ok (.file csv) ∧
          (Table.records csv).map Table.Record.fields =
            Table.idRows settings.csvHeaders ids ∧
          ids.length = report.vertices)) ∧
    (∀ (directory : Directory) (logVariable : Option String)
        (settings : Settings) (packing : Invocation) (input output : String)
        (segments : ℕ) (place : Place),
      packing.request = .pack input output segments →
      directory.LeadsToFile output place →
      let packed := runWith directory logVariable packing settings
      packed.exit = 0 →
      ∃ bytes, packed.directory.find output = .ok (.file bytes) ∧
        ∀ (holding : Directory) (variableThen : Option String)
          (settingsThen : Settings) (inspecting : Invocation) (path : String)
          (json : Bool),
          inspecting.request = .inspect path json →
          holding.find path = .ok (.file bytes) →
          let inspected := runWith holding variableThen inspecting settingsThen
          ∃ report, inspected.Reports json report ∧
            report.fileBytes = report.expectedBytes) ∧
    ∀ (header : Segmentation.Header) (width : ℕ), header.width = .ok width →
      header.vertices.toNat * width < 2 ^ 64 ∧
        ∃ words, header.words = .ok words ∧
          header.recordSize = .ok (8 + 4 * words) ∧ 8 + 4 * words < 2 ^ 64 := by
  refine ⟨?_, ?_, ?_⟩
  · intro directory logVariable settings unpacking inspecting input output json
      bytes hunpack hinspect hfile hwritable unpacked inspected
    -- A printed report is that of the bytes, so no text is looked at from here.
    have hreports : ∀ report, inspected.Reports json report ↔
        SegmentationReport.ofBytes bytes = .ok report :=
      fun report => reports_iff hinspect hfile
    simp only [hreports]
    refine ⟨unpack_exit_iff_report hunpack hfile hwritable, ?_⟩
    intro report hexit hreport
    obtain ⟨place, hplace⟩ | hdevice := hwritable.fileAt_or_device
    · obtain ⟨ids, hwrites, hlength⟩ :=
        exists_ids_of_unpack hunpack hfile hplace hexit hreport
      exact .inr ⟨_, ids, hwrites.find_eq, Table.fields_records_idTable _ ids,
        hlength⟩
    · exact .inl hdevice
  · intro directory logVariable settings packing input output segments place
      hpack hplace packed hexit
    obtain ⟨ids, bytes, record, -, hstores, hpacked⟩ :=
      exists_ids_of_pack hpack hplace hexit
    refine ⟨bytes, hpacked ▸ hplace.find_insert bytes, ?_⟩
    intro holding variableThen settingsThen inspecting path json hinspect
      hholding inspected
    obtain ⟨report, hreport, hsize⟩ := exists_report_of_stores hstores
    exact ⟨report, (reports_iff hinspect hholding).mpr hreport, hsize⟩
  · intro header width hwidth
    obtain ⟨hbits, hbytes⟩ :=
      SegmentationReport.expectedBytes_lt (fieldWidth_le hwidth) header.vertices
    refine ⟨hbits, wordCount header.vertices.toNat width, ?_,
      SegmentationReport.recordSize_of_width hwidth, hbytes⟩
    rw [Segmentation.Header.words, hwidth]
    rfl

/-- A record of three ids with a byte behind it, and the same ids packed. -/
theorem inspect_foretells_unpack_three_ids :
    let directory : Directory :=
      ⟨[(["ids.seg"], .file [3, 0, 0, 0, 5, 0, 0, 0, 17, 1, 0, 0, 7]),
        (["ids.txt"], .file [49, 10, 50, 10, 52, 10])], [], []⟩
    let unpacked := runWith directory none
      ⟨none, false, false, .unpack "ids.seg" "ids.csv"⟩ Settings.standard
    let inspected := runWith directory none
      ⟨none, false, false, .inspect "ids.seg" true⟩ Settings.standard
    let packed := runWith directory none
      ⟨none, false, false, .pack "ids.txt" "new.seg" 5⟩ Settings.standard
    (∃ report csv ids, inspected.Reports true report ∧
      report.expectedBytes ≤ report.fileBytes ∧
      unpacked.directory.find "ids.csv" = .ok (.file csv) ∧
      (Table.records csv).map Table.Record.fields = Table.idRows false ids ∧
      ids.length = report.vertices) ∧
    (∃ report, (runWith packed.directory none
        ⟨none, false, false, .inspect "new.seg" true⟩ Settings.standard).Reports
          true report ∧
      report.fileBytes = report.expectedBytes) ∧
    (⟨4294967295, 4294967295⟩ : Segmentation.Header).recordSize =
      .ok 17179869188 := by
  intro directory unpacked inspected packed
  have hcsv : directory.FileAt "ids.csv" ["ids.csv"] :=
    Directory.fileAt_of_absent (by decide) (by decide) rfl
  have hseg : directory.LeadsToFile "new.seg" ["new.seg"] :=
    Directory.leadsToFile_of_absent (by decide) (by decide)
  have hunpacks : unpacked.exit = 0 := by
    unfold unpacked directory
    decide +kernel
  have hpacks : packed.exit = 0 := by
    unfold packed directory
    decide +kernel
  obtain ⟨hagree, hpack, hsize⟩ := inspect_foretells_unpack
  refine ⟨?_, ?_, ?_⟩
  · obtain ⟨hexit, hrows⟩ := hagree directory none Settings.standard
      ⟨none, false, false, .unpack "ids.seg" "ids.csv"⟩
      ⟨none, false, false, .inspect "ids.seg" true⟩ "ids.seg" "ids.csv" true _
      rfl rfl rfl hcsv.writable
    obtain ⟨report, hreports, -, henough⟩ := hexit.mp hunpacks
    obtain ⟨device, hdevice⟩ | ⟨csv, ids, hfound⟩ := hrows report hunpacks hreports
    · cases hdevice
    · exact ⟨report, csv, ids, hreports, henough, hfound⟩
  · obtain ⟨bytes, hfound, hreported⟩ := hpack directory none Settings.standard
      ⟨none, false, false, .pack "ids.txt" "new.seg" 5⟩ "ids.txt" "new.seg" 5 _ rfl
      hseg hpacks
    exact hreported _ none Settings.standard
      ⟨none, false, false, .inspect "new.seg" true⟩ "new.seg" true rfl hfound
  · obtain ⟨-, words, hwords, hrecord, -⟩ :=
      hsize ⟨4294967295, 4294967295⟩ 32 rfl
    obtain rfl : 4294967295 = words := Except.ok.inj hwords
    exact hrecord

end PackedTopology.Command
