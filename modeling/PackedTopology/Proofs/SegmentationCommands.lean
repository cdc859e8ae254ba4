import PackedTopology.Proofs.OutputRoom
import PackedTopology.Proofs.WrittenTable

/-!
# The commands for segmentations

Packing comes to what reading its table, opening its output and writing the
record come to, one after the other.  Unpacking and inspecting start from the
same bytes: one reads a whole record and writes its ids, the other one reads the
header and prints what follows from it.
-/

namespace PackedTopology

namespace Segmentation

/-- The stored form of the record of some ids. -/
structure Stores (ids : List UInt32) (segments : ℕ) (bytes : List UInt8)
    (record : Record) : Prop where
  emits : Writer.Emits (write ids segments) bytes record.size
  length_eq : bytes.length = record.size
  consumes : ∀ limit : Option ℕ, (∀ bound ∈ limit, ids.length ≤ bound) →
    Reader.Consumes (read limit) bytes record
  ids_eq : record.ids = ids

variable {ids : List UInt32} {segments : ℕ}

theorem exists_stores {reported : ℕ} {writer : Writer}
    (haccepted : ((write ids segments).step writer).1 = .ok reported) :
    ∃ bytes record, Stores ids segments bytes record := by
  obtain ⟨bytes, record, hemits, hlength, hconsumes, -, -, hids⟩ :=
    write_read haccepted
  exact ⟨bytes, record, hemits, hlength, hconsumes, hids⟩

theorem Stores.exists_step_read {bytes : List UInt8} {record : Record}
    (hstores : Stores ids segments bytes record) {limit : ℕ}
    (hlimit : ids.length ≤ limit) :
    ∃ after, (read (some limit)).step (.ofList bytes) = (.ok record, after) := by
  have hread := hstores.consumes (some limit) (by simpa using hlimit) [] 0
  rw [List.append_nil, ← Reader.ofList_eq_holding] at hread
  exact ⟨_, hread⟩

end Segmentation

namespace Command

open PackedTopology.Command.Task

variable {directory emptied : Directory} {input output : String}
  {settings : Settings} {opened : Directory.Output}

theorem comesTo_logPacked (text : String) (vertices segments packedBytes : ℕ) :
    ComesTo (logPacked text vertices segments packedBytes) directory (.ok ())
      directory "" :=
  comesTo_log _ _ _ _

/-! ## Packing -/

section

variable {ids : List UInt32} {segments : ℕ}

/-- The ids that a command finds in a table. -/
abbrev FindsIds :=
  FindsRows fun _ cells => Table.readId cells

theorem comesTo_pack_of_error {fault : Fault} {writer : Writer}
    (hids : FindsIds settings directory input ids)
    (hcreate : directory.createOutput output = .ok (opened, emptied))
    (hwrite : (Segmentation.write ids segments).step (.empty opened.medium) =
      (.error fault, writer)) :
    ComesTo (pack settings input output segments) directory
      (.error (Complaint.ofFault "packing segmentation" fault))
      (emptied.store opened writer.content) "" :=
  hids.bind (comesTo_writeTo_of_error hcreate hwrite).bind_error

theorem delivers_pack {bytes : List UInt8} {size : ℕ} (output : String)
    (hids : FindsIds settings directory input ids)
    (hemits : Writer.Emits (Segmentation.write ids segments) bytes size) :
    Delivers (pack settings input output segments) directory [(output, bytes)]
      () := by
  have hpours := (Segmentation.streams_write ids segments).pours_of_emits hemits
  refine .after_reading hids ?_
  refine (delivers_writeTo _ _ directory hpours fun stored => ?_).bind
    fun written => delivers_nil (comesTo_log _ _ _ _)
  exact comesTo_logPacked _ _ _ _

theorem exists_stops_pack {bytes : List UInt8} {fault : Fault} (output : String)
    (hids : FindsIds settings directory input ids)
    (hpours : Writer.Pours (Segmentation.write ids segments) bytes (.error fault)) :
    ∃ after, Stops (pack settings input output segments) directory after := by
  obtain ⟨after, hstops⟩ := exists_stops_writeTo_of_pours _ hpours
  exact ⟨after, .bind_of_comesTo hids (hstops.bind _)⟩

variable {place : Place} {logVariable : Option String}
  {invocation : Invocation}

theorem run_pack {bytes : List UInt8} {record : Segmentation.Record}
    (hrequest : invocation.request = .pack input output segments)
    (hids : FindsIds settings directory input ids)
    (hstores : Segmentation.Stores ids segments bytes record)
    (hplace : directory.FileAt output place) :
    (runWith directory logVariable invocation settings).Writes directory output
      place bytes :=
  writes_of_delivers hrequest hplace (delivers_pack output hids hstores.emits)

/-- A run that packs into a file and does not fail finds ids in its table, and
leaves their record in the file. -/
theorem exists_ids_of_pack
    (hrequest : invocation.request = .pack input output segments)
    (hplace : directory.LeadsToFile output place)
    (hexit : (runWith directory logVariable invocation settings).exit = 0) :
    ∃ ids bytes record, FindsIds settings directory input ids ∧
      Segmentation.Stores ids segments bytes record ∧
      (runWith directory logVariable invocation settings).directory =
        directory.insert place (.file bytes) := by
  obtain ⟨complaint | ids, htable⟩ := @exists_comesTo_readTable _
    (fun _ cells => Table.readId cells) settings directory input
  · exact absurd hexit (exit_ne_zero_of_error hrequest htable.bind_error)
  obtain ⟨bytes, fault | size, hpours⟩ := Segmentation.streams_write ids segments
  · obtain ⟨after, complaint, hpack⟩ := exists_stops_pack output htable hpours
    exact absurd hexit (exit_ne_zero_of_error hrequest hpack)
  · have hwrite := congrArg Prod.fst (hpours.emits (.empty .unbounded) rfl)
    obtain ⟨stored, record, hstores⟩ := Segmentation.exists_stores hwrite
    exact ⟨ids, stored, record, htable, hstores, directory_eq_of_delivers hrequest
      hplace (delivers_pack output htable hstores.emits) hexit⟩

end

/-! ## Unpacking -/

section

variable {bytes : List UInt8}

theorem comesTo_unpack_of_error {fault : Fault} {after : Reader} (output : String)
    (hfile : directory.find input = .ok (.file bytes))
    (hread : (Segmentation.read (some settings.maxVertices)).step
      (.ofList bytes) = (.error fault, after)) :
    ComesTo (unpack settings input output) directory
      (.error (Complaint.ofFault "unpacking segmentation" fault)) directory "" := by
  have hrecord := comesTo_readFrom "unpacking segmentation"
    (Segmentation.read (some settings.maxVertices)) hfile
  rw [hread] at hrecord
  exact hrecord.bind_error

/-- The record that a command finds in its input. -/
def FindsRecord (settings : Settings) (directory : Directory) (path : String)
    (record : Segmentation.Record) : Prop :=
  ComesTo (readFrom "unpacking segmentation" path
    (Segmentation.read (some settings.maxVertices))) directory (.ok record)
    directory ""

theorem findsRecord_of_file {record : Segmentation.Record} {after : Reader}
    (hfile : directory.find input = .ok (.file bytes))
    (hread : (Segmentation.read (some settings.maxVertices)).step
      (.ofList bytes) = (.ok record, after)) :
    FindsRecord settings directory input record := by
  have hrecord := comesTo_readFrom "unpacking segmentation"
    (Segmentation.read (some settings.maxVertices)) hfile
  rwa [hread] at hrecord

theorem delivers_unpack {record : Segmentation.Record} (output : String)
    (hrecord : FindsRecord settings directory input record) :
    Delivers (unpack settings input output) directory
      [(output, Table.idTable settings.csvHeaders record.ids)] () := by
  refine .after_reading hrecord (.after_reading (comesTo_logPacked _ _ _ _) ?_)
  exact (delivers_writeLines _ _ directory _).bind fun written =>
    delivers_nil (comesTo_log _ _ _ _)

variable {place : Place} {logVariable : Option String} {invocation : Invocation}
  {record : Segmentation.Record}

theorem run_unpack {after : Reader}
    (hrequest : invocation.request = .unpack input output)
    (hfile : directory.find input = .ok (.file bytes))
    (hread : (Segmentation.read (some settings.maxVertices)).step
      (.ofList bytes) = (.ok record, after))
    (hplace : directory.FileAt output place) :
    (runWith directory logVariable invocation settings).Writes directory output
      place (Table.idTable settings.csvHeaders record.ids) :=
  writes_of_delivers hrequest hplace
    (delivers_unpack output (findsRecord_of_file hfile hread))

theorem run_unpack_of_stores {ids : List UInt32} {segments : ℕ}
    (hrequest : invocation.request = .unpack input output)
    (hfile : directory.find input = .ok (.file bytes))
    (hstores : Segmentation.Stores ids segments bytes record)
    (hlimit : ids.length ≤ settings.maxVertices)
    (hplace : directory.FileAt output place) :
    (runWith directory logVariable invocation settings).Writes directory output
      place (Table.idTable settings.csvHeaders ids) := by
  obtain ⟨after, hread⟩ := hstores.exists_step_read hlimit
  rw [← hstores.ids_eq]
  exact run_unpack hrequest hfile hread hplace

end

/-! ## Inspecting -/

namespace SegmentationReport

/-- What is told about the bytes of a file. -/
def ofBytes (bytes : List UInt8) : Except Fault SegmentationReport := do
  let header ← (Segmentation.Header.read.step (.ofList bytes)).1
  ofHeader header bytes.length

theorem ofBytes_of_error {bytes : List UInt8} {fault : Fault}
    (hheader : (Segmentation.Header.read.step (.ofList bytes)).1 =
      .error fault) :
    ofBytes bytes = .error fault := by
  rw [ofBytes, hheader]
  rfl

theorem ofBytes_of_ok {bytes : List UInt8} {header : Segmentation.Header}
    (hheader : (Segmentation.Header.read.step (.ofList bytes)).1 = .ok header) :
    ofBytes bytes = ofHeader header bytes.length := by
  rw [ofBytes, hheader]
  rfl

/-- A report as it is printed. -/
def shown (report : SegmentationReport) (json : Bool) : String :=
  if json then report.object else report.text

end SegmentationReport

section

variable {bytes : List UInt8}

theorem comesTo_inspect (json : Bool)
    (hfile : directory.find input = .ok (.file bytes)) :
    match SegmentationReport.ofBytes bytes with
    | .ok report =>
        ComesTo (inspect input json) directory (.ok ()) directory
          (report.shown json)
    | .error fault =>
        ComesTo (inspect input json) directory
          (.error (Complaint.ofFault "reading header" fault)) directory "" := by
  have hsize : ComesTo (ensure (Complaint.ofDevice "reading input file" input)
      (directory.fileSize input)) directory (.ok bytes.length) directory "" := by
    rw [fileSize_of_file hfile]
    exact comesTo_ensure _ _
  have hheader := comesTo_readFrom "reading header" Segmentation.Header.read hfile
  cases hread : (Segmentation.Header.read.step (.ofList bytes)).1 with
  | error fault =>
      rw [hread] at hheader
      rw [SegmentationReport.ofBytes_of_error hread]
      exact comesTo_get fun _ _ => hsize.bind hheader.bind_error
  | ok header =>
      rw [hread] at hheader
      rw [SegmentationReport.ofBytes_of_ok hread]
      cases hreport : SegmentationReport.ofHeader header bytes.length with
      | error fault =>
          refine comesTo_get fun _ _ => hsize.bind (hheader.bind ?_)
          rw [hreport]
          exact ComesTo.bind_error (comesTo_ensure _ _)
      | ok report =>
          refine comesTo_get fun _ _ => hsize.bind (hheader.bind ?_)
          rw [hreport]
          exact ComesTo.bind (comesTo_ensure _ _) (comesTo_print _)

end

end Command

end PackedTopology
