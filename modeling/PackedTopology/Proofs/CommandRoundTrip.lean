import PackedTopology.Proofs.SegmentationCommands

/-!
# Packing and unpacking with commands

What a command packed, another one unpacks to a table of the same ids, and
packing that table gives the same bytes again.  So the tables that unpacking
writes are a normal form: however the ids were spelled at first, from then on
neither the table nor the record changes.
-/

namespace PackedTopology.Command

/-- A table that was packed comes back in decimal, and goes on to give the same
record and the same table.  The paths need not lead to different files, since a
command reads all of its input before it opens its output. -/
theorem unpack_pack_normal_form (logVariable : Option String) {settings : Settings}
    {directory : Directory} {packing unpacking repacking reunpacking : Invocation}
    {table binary csv again last : String} {segments : ℕ} {text : List UInt8}
    {binaryPlace csvPlace againPlace lastPlace : Place}
    (hpacking : packing.request = .pack table binary segments)
    (hunpacking : unpacking.request = .unpack binary csv)
    (hrepacking : repacking.request = .pack csv again segments)
    (hreunpacking : reunpacking.request = .unpack again last)
    (htable : directory.find table = .ok (.file text))
    (hbinary : directory.FileAt binary binaryPlace)
    (hcsv : directory.FileAt csv csvPlace)
    (hagain : directory.FileAt again againPlace)
    (hlast : directory.FileAt last lastPlace)
    (haccepted :
      (runWith directory logVariable packing settings).exit = 0) :
    let packed := runWith directory logVariable packing settings
    let unpacked := runWith packed.directory logVariable unpacking settings
    let repacked := runWith unpacked.directory logVariable repacking settings
    let reunpacked := runWith repacked.directory logVariable reunpacking settings
    ∃ ids record,
      Table.read (fun _ cells => Table.readId cells) settings.csvHeaders text =
        .ok ids ∧
      packed.directory.find binary = .ok (.file record) ∧
      (ids.length ≤ settings.maxVertices →
        let decimals := ((if settings.csvHeaders then ["segment\n"] else []) ++
          ids.map fun id => toString id.toNat ++ "\n").flatMap Text.encode
        unpacked.exit = 0 ∧
        unpacked.directory.find csv = .ok (.file decimals) ∧
        repacked.exit = 0 ∧
        repacked.directory.find again = .ok (.file record) ∧
        reunpacked.exit = 0 ∧
        reunpacked.directory.find last = .ok (.file decimals)) := by
  intro packed unpacked repacked reunpacked
  obtain ⟨ids, bytes, record, hids, hstores, hpacks⟩ :=
    exists_ids_of_pack hpacking hbinary.toLeadsToFile haccepted
  have hpacked : packed.Writes directory binary binaryPlace bytes :=
    ⟨haccepted, hbinary, hpacks⟩
  refine ⟨ids, bytes, (findsRows_iff htable).mp hids, hpacked.find_eq, ?_⟩
  intro hlimit decimals
  have hdecimals : Table.idTable settings.csvHeaders ids = decimals :=
    Table.idTable_eq_decimals settings.csvHeaders ids
  have hunpacked : unpacked.Writes packed.directory csv csvPlace decimals := by
    rw [← hdecimals]
    exact run_unpack_of_stores hunpacking hpacked.find_eq hstores hlimit
      (hpacked.keeps_fileAt hcsv)
  -- From here on the table is one that was written, no longer the user's.
  have hidsAgain : FindsIds settings unpacked.directory csv ids := by
    apply (findsRows_iff hunpacked.find_eq).mpr
    rw [← hdecimals]
    exact Table.read_idTable settings.csvHeaders ids
  have hrepacked : repacked.Writes unpacked.directory again againPlace bytes :=
    run_pack hrepacking hidsAgain hstores
      (hunpacked.keeps_fileAt (hpacked.keeps_fileAt hagain))
  have hreunpacked : reunpacked.Writes repacked.directory last lastPlace
      decimals := by
    rw [← hdecimals]
    exact run_unpack_of_stores hreunpacking hrepacked.find_eq hstores hlimit
      (hrepacked.keeps_fileAt
        (hunpacked.keeps_fileAt (hpacked.keeps_fileAt hlast)))
  exact ⟨hunpacked.exit_eq, hunpacked.find_eq, hrepacked.exit_eq,
    hrepacked.find_eq, hreunpacked.exit_eq, hreunpacked.find_eq⟩

/-- Three ids behind a name, one of them in hexadecimal and one between blanks;
the table comes back in decimal. -/
theorem unpack_pack_normal_form_hexadecimal :
    let directory : Directory :=
      ⟨[(["ids.txt"], .file (Text.encode "id\n0x1\n 2 \r\n+4"))], [], []⟩
    let settings : Settings := ⟨3, true, ""⟩
    let packed := runWith directory none
      ⟨none, false, false, .pack "ids.txt" "ids.seg" 5⟩ settings
    let unpacked := runWith packed.directory none
      ⟨none, false, false, .unpack "ids.seg" "ids.csv"⟩ settings
    let repacked := runWith unpacked.directory none
      ⟨none, false, false, .pack "ids.csv" "again.seg" 5⟩ settings
    ∃ record, packed.directory.find "ids.seg" = .ok (.file record) ∧
      unpacked.exit = 0 ∧
      unpacked.directory.find "ids.csv" =
        .ok (.file (Text.encode "segment\n1\n2\n4\n")) ∧
      repacked.exit = 0 ∧
      repacked.directory.find "again.seg" = .ok (.file record) := by
  intro directory settings packed unpacked repacked
  have hpacks : packed.exit = 0 := by
    unfold packed directory settings
    decide +kernel
  obtain ⟨ids, record, hids, hrecord, hruns⟩ :=
    @unpack_pack_normal_form none settings directory
      ⟨none, false, false, .pack "ids.txt" "ids.seg" 5⟩
      ⟨none, false, false, .unpack "ids.seg" "ids.csv"⟩
      ⟨none, false, false, .pack "ids.csv" "again.seg" 5⟩
      ⟨none, false, false, .unpack "again.seg" "again.csv"⟩
      "ids.txt" "ids.seg" "ids.csv" "again.seg" "again.csv" 5 _
      ["ids.seg"] ["ids.csv"] ["again.seg"] ["again.csv"] rfl rfl rfl rfl rfl
      (Directory.fileAt_of_absent (by decide) (by decide) rfl)
      (Directory.fileAt_of_absent (by decide) (by decide) rfl)
      (Directory.fileAt_of_absent (by decide) (by decide) rfl)
      (Directory.fileAt_of_absent (by decide) (by decide) rfl) hpacks
  have hfound : Table.read (fun _ cells => Table.readId cells) true
      (Text.encode "id\n0x1\n 2 \r\n+4") = .ok [1, 2, 4] := by
    decide +kernel
  obtain rfl : [1, 2, 4] = ids := Except.ok.inj (hfound.symm.trans hids)
  obtain ⟨hexit, hcsv, hagainExit, hagain, -⟩ := hruns (by decide)
  exact ⟨record, hrecord, hexit, hcsv, hagainExit, hagain⟩

end PackedTopology.Command
