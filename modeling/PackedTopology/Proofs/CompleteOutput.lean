import PackedTopology.Proofs.FailedReading
import PackedTopology.Proofs.WrittenIndex

/-!
# Runs that end well

A command ends well only if each of its outputs took all that was meant for it.
What is meant for which output follows from the input alone; whether an output
takes it depends on what stands at its path.
-/

namespace PackedTopology

namespace Command

open PackedTopology.Command.Task

/-! ## What is meant for the outputs -/

/-- The index that a command finds in its input. -/
def FindsIndex (directory : Directory) (path : String) (decoded : DecodedIndex) :
    Prop :=
  ComesTo (readFrom "unpacking persistence index" path PersistenceIndex.read)
    directory (.ok decoded) directory ""

theorem findsIndex_of_storedIndex {directory : Directory} {path : String}
    {index : PersistenceIndex} {mappingCount constraintCount : UInt32}
    (hfile : directory.find path =
      .ok (.file (index.storedIndex mappingCount constraintCount)))
    (hmapping : mappingCount.toNat = index.mapping.length)
    (hconstraints : constraintCount.toNat = index.constraints.length) :
    FindsIndex directory path ⟨.ofList index.mapping, .ofList index.constraints,
      (index.storedIndex mappingCount constraintCount).length⟩ := by
  have hread := PersistenceIndex.consumes_read hmapping hconstraints [] 0
  rw [List.append_nil, ← Reader.ofList_eq_holding] at hread
  have hcomes := comesTo_readFrom "unpacking persistence index"
    PersistenceIndex.read hfile
  rwa [hread] at hcomes

/-- The paths that a request writes to. -/
def Request.outputPaths : Request → List String
  | .pack _ output _ => [output]
  | .unpack _ output => [output]
  | .packIndex _ _ output => [output]
  | .unpackIndex _ mapping constraints => [mapping, constraints]
  | .inspect _ _ | .inspectIndex _ _ => []

/-- What the input of a request yields for each of its outputs: a whole encoding,
or the whole text of a table. -/
inductive Yields (directory : Directory) (settings : Settings) :
    Request → List (String × List UInt8) → Prop
  | pack {input output : String} {segments size : ℕ} {ids : List UInt32}
      {bytes : List UInt8} (hids : FindsIds settings directory input ids)
      (hemits : Writer.Emits (Segmentation.write ids segments) bytes size) :
      Yields directory settings (.pack input output segments) [(output, bytes)]
  | unpack {input output : String} {record : Segmentation.Record}
      (hrecord : FindsRecord settings directory input record) :
      Yields directory settings (.unpack input output)
        [(output, Table.idTable settings.csvHeaders record.ids)]
  | packIndex {mapping constraints output : String} {size : ℕ}
      {index : PersistenceIndex} {bytes : List UInt8}
      (hmapping : FindsRows Table.readMappingEntry settings directory mapping
        index.mapping)
      (hconstraints : FindsRows Table.readConstraint settings directory
        constraints index.constraints)
      (hemits : Writer.Emits index.write bytes size) :
      Yields directory settings (.packIndex mapping constraints output)
        [(output, bytes)]
  | unpackIndex {input mapping constraints : String} {decoded : DecodedIndex}
      (hindex : FindsIndex directory input decoded) :
      Yields directory settings (.unpackIndex input mapping constraints)
        [(mapping,
            Table.mappingTable settings.csvHeaders decoded.mappings.toList),
          (constraints,
            Table.constraintTable settings.csvHeaders
              decoded.constraints.toList)]

section

variable {directory : Directory} {settings : Settings} {request : Request}
  {outputs : List (String × List UInt8)}

theorem Yields.delivers (hyields : Yields directory settings request outputs) :
    Delivers (perform settings request) directory outputs () := by
  cases hyields with
  | pack hids hemits => exact delivers_pack _ hids hemits
  | unpack hrecord => exact delivers_unpack _ hrecord
  | @packIndex _ _ _ _ index _ hmapping hconstraints hemits =>
      have hpours := index.streams_write.pours_of_emits hemits
      refine .after_reading hmapping (.after_reading hconstraints ?_)
      refine (delivers_writeTo _ _ directory hpours fun stored => ?_).bind
        fun written => delivers_nil (comesTo_log _ _ _ _)
      exact comesTo_log _ _ _ _
  | unpackIndex hindex =>
      have hread : ComesTo (readIndex "unpacking persistence index" _) directory
          (.ok _) directory "" :=
        hindex.bind ((comesTo_log _ _ _ _).bind (comesTo_pure _))
      refine .after_reading hread ?_
      exact (delivers_writeLines _ _ directory _).bind fun written =>
        delivers_writeLines _ _ written _

theorem exists_comesTo_readFrom {α : Type} (directory : Directory)
    (operation path : String) (action : Action Reader α) :
    ∃ result, ComesTo (readFrom operation path action) directory result directory
      "" := by
  cases hopen : directory.openInput path with
  | error error =>
      obtain ⟨complaint, hcomes⟩ := fails_openInput hopen
      exact ⟨_, hcomes.bind_error⟩
  | ok source => exact ⟨_, comesTo_readFrom_of_source operation action hopen⟩

/-- A request that writes has something for each of its outputs, or stops before
it comes to them or because its record is refused. -/
theorem exists_yields_or_stops (directory : Directory) (settings : Settings)
    (hwrites : request.outputPaths ≠ []) :
    (∃ outputs, Yields directory settings request outputs) ∨
      ∃ after, Stops (perform settings request) directory after := by
  cases request with
  | pack input output segments =>
      obtain ⟨complaint | ids, htable⟩ := @exists_comesTo_readTable _
        (fun _ cells => Table.readId cells) settings directory input
      · exact .inr ⟨_, _, htable.bind_error⟩
      obtain ⟨bytes, fault | size, hpours⟩ := Segmentation.streams_write ids segments
      · exact .inr (exists_stops_pack output htable hpours)
      · exact .inl ⟨_, .pack htable hpours.emits⟩
  | unpack input output =>
      obtain ⟨complaint | record, hrecord⟩ := exists_comesTo_readFrom directory
        "unpacking segmentation" input
        (Segmentation.read (some settings.maxVertices))
      · exact .inr ⟨_, _, hrecord.bind_error⟩
      · exact .inl ⟨_, .unpack hrecord⟩
  | packIndex mapping constraints output =>
      obtain ⟨complaint | entries, hmapping⟩ := @exists_comesTo_readTable _
        Table.readMappingEntry settings directory mapping
      · exact .inr ⟨_, _, hmapping.bind_error⟩
      obtain ⟨complaint | listed, hconstraints⟩ := @exists_comesTo_readTable _
        Table.readConstraint settings directory constraints
      · exact .inr ⟨_, .bind_of_comesTo hmapping ⟨_, hconstraints.bind_error⟩⟩
      obtain ⟨bytes, fault | size, hpours⟩ :=
        PersistenceIndex.streams_write ⟨entries, listed⟩
      · obtain ⟨after, hstops⟩ := exists_stops_writeTo_of_pours _ hpours
        exact .inr ⟨after, .bind_of_comesTo hmapping
          (.bind_of_comesTo hconstraints (hstops.bind _))⟩
      · exact .inl ⟨_, @Yields.packIndex _ _ _ _ _ _ ⟨entries, listed⟩ _ hmapping
          hconstraints hpours.emits⟩
  | unpackIndex input mapping constraints =>
      obtain ⟨complaint | decoded, hindex⟩ := exists_comesTo_readFrom directory
        "unpacking persistence index" input PersistenceIndex.read
      · exact .inr ⟨_, .bind ⟨_, hindex.bind_error⟩ _⟩
      · exact .inl ⟨_, .unpackIndex hindex⟩
  | inspect input json => exact absurd rfl hwrites
  | inspectIndex input json => exact absurd rfl hwrites

/-! ## Runs -/

variable {logVariable : Option String} {invocation : Invocation}
  {arguments : List String}

theorem Yields.map_fst (hyields : Yields directory settings request outputs) :
    outputs.map Prod.fst = request.outputPaths := by
  cases hyields <;> rfl

/-- A run that writes ends with code zero exactly if each of its outputs took
every byte that the input yields for it.  If there is a byte for a device without
room, the run fails.  It also fails if an output has less room than it needs, or
cannot be opened: then the outputs before that one are complete, that one holds the
front that it has room for, and those after it are as they were. -/
theorem exit_zero_iff_output_complete (directory : Directory)
    (logVariable : Option String) (arguments : List String)
    (invocation : Invocation)
    (harguments : Invocation.ofArguments arguments = .ok invocation)
    (hwrites : invocation.request.outputPaths ≠ []) :
    let outcome := run directory logVariable arguments
    (outcome.exit = 0 ↔
      ∃ settings outputs, settingsFor directory invocation = .ok settings ∧
        Yields directory settings invocation.request outputs ∧
        outputs.map Prod.fst = invocation.request.outputPaths ∧
        directory.AcceptsAll outputs outcome.directory) ∧
    (∀ settings outputs path bytes,
      settingsFor directory invocation = .ok settings →
      Yields directory settings invocation.request outputs →
      (path, bytes) ∈ outputs → bytes ≠ [] → directory.DeviceAt path .full →
      outcome.exit = 1) ∧
    (∀ settings outputs after,
      settingsFor directory invocation = .ok settings →
      Yields directory settings invocation.request outputs →
      directory.BreaksOff outputs after →
      outcome.exit = 1 ∧ outcome.directory = after) := by
  intro outcome
  have hrun : outcome = _ := run_of_arguments harguments
  cases hsettings : settingsFor directory invocation with
  | error complaint =>
      rw [hsettings] at hrun
      refine ⟨iff_of_false ?_ ?_, nofun, nofun⟩
      · rw [hrun]
        exact Nat.one_ne_zero
      · rintro ⟨_, _, hok, -⟩
        cases hok
  | ok settings =>
      rw [hsettings] at hrun
      simp only at hrun
      refine ⟨⟨fun hexit => ?_, ?_⟩, ?_, ?_⟩
      · rw [hrun] at hexit ⊢
        obtain ⟨outputs, hyields⟩ | ⟨after, hstops⟩ :=
          exists_yields_or_stops directory settings hwrites
        · exact ⟨settings, outputs, rfl, hyields, hyields.map_fst,
            (exit_zero_iff_acceptsAll rfl hyields.delivers).mp hexit⟩
        · rw [(runWith_of_stops rfl hstops).1] at hexit
          cases hexit
      · rintro ⟨_, outputs, hok, hyields, -, haccepts⟩
        cases hok
        rw [hrun] at haccepts ⊢
        exact (exit_zero_iff_acceptsAll rfl hyields.delivers).mpr haccepts
      · intro _ outputs path bytes hok hyields hmem hsome hfull
        cases hok
        rw [hrun]
        obtain ⟨after, haccepts⟩ | ⟨after, hbreaks⟩ :=
          directory.acceptsAll_or_breaksOff outputs
        · exact absurd (haccepts.eq_nil hfull hmem) hsome
        · exact (runWith_of_stops rfl (hyields.delivers.stops after hbreaks)).1
      · intro _ outputs after hok hyields hbreaks
        cases hok
        rw [hrun]
        exact runWith_of_stops rfl (hyields.delivers.stops after hbreaks)

/-- A device without room refuses a short record and a long one, and the second
of two tables, but not a table without a byte.  A file with room for a part of a
record or of the second table keeps that part. -/
theorem exit_zero_iff_output_complete_full_device :
    let directory (ids : List UInt8) : Directory :=
      ⟨[(["ids"], .file ids),
        (["one"], .file [0, 0, 0, 0, 1, 0, 0, 0, 5, 0, 0, 0, 0, 0, 0, 0, 0, 0, 0, 0,
          7, 0, 0, 0]),
        (["none"], .file [0, 0, 0, 0, 0, 0, 0, 0]), (["dev"], .folder),
        (["dev", "full"], .device .full)], [],
        [(["short"], .bounded 10), (["late"], .buffered 3 Medium.bufferSize)]⟩
    let few := directory (Text.encode "0\n1\n")
    let many := directory (Table.idTable false (List.replicate 70000 1))
    (run few none ["pack", "ids", "/dev/full", "--segments", "2"]).exit = 1 ∧
      (run many none ["pack", "ids", "/dev/full", "--segments", "2"]).exit = 1 ∧
      (run few none ["unpack-index", "one", "out", "/dev/full"]).exit = 1 ∧
      (run few none ["unpack-index", "none", "out", "/dev/full"]).exit = 0 ∧
      (let packed := run few none ["pack", "ids", "short", "--segments", "2"]
      packed.exit = 1 ∧
        packed.directory =
          few.insert ["short"] (.file [2, 0, 0, 0, 2, 0, 0, 0, 4, 0])) ∧
      let unpacked := run few none ["unpack-index", "one", "out", "late"]
      unpacked.exit = 1 ∧
        unpacked.directory =
          (few.insert ["out"] (.file [])).insert ["late"]
            (.file (Text.encode "5,0")) := by
  intro directory few many
  have hfull : ∀ ids, (directory ids).DeviceAt "/dev/full" .full := fun ids =>
    ⟨["dev", "full"], rfl, rfl⟩
  have hids : FindsIds Settings.standard few "ids" [0, 1] :=
    (findsRows_iff rfl).mpr (by decide +kernel)
  have hpack : ∀ (table : List UInt8) (ids : List UInt32),
      FindsIds Settings.standard (directory table) "ids" ids →
      (∀ id ∈ ids, id.toNat < 2) → ids.length < 2 ^ 32 →
      (run (directory table) none
        ["pack", "ids", "/dev/full", "--segments", "2"]).exit = 1 := by
    intro table ids hids hrange hlength
    obtain ⟨-, hruns, -⟩ := exit_zero_iff_output_complete (directory table) none
      ["pack", "ids", "/dev/full", "--segments", "2"]
      ⟨none, false, false, .pack "ids" "/dev/full" 2⟩ (by decide +kernel) (by decide)
    have hcount := Segmentation.countField_of_lt hlength .segmentationHeader
    have hwords := Segmentation.pack_eq_ok_iff.mpr ⟨2, rfl, hrange, rfl⟩
    have hemits := Segmentation.emits_write hcount rfl hwords
    exact hruns _ _ _ _ rfl (.pack hids hemits) List.mem_cons_self
      (List.cons_ne_nil _ _) (hfull table)
  have hout : few.Accepts "out" [] (few.insert ["out"] (.file [])) :=
    (Directory.fileAt_of_absent rfl rfl rfl).accepts []
  have hempty : Table.mappingTable false (SortedMappings.ofList []).toList = [] := by
    decide +kernel
  have hone : ∀ mapping constraints,
      Yields few Settings.standard (.unpackIndex "one" mapping constraints)
        [(mapping, []), (constraints, Text.encode "5,0.0,7\n")] := by
    intro mapping constraints
    have hconstraint : Table.constraintTable false [⟨5, ⟨0⟩, 7⟩] =
        Text.encode "5,0.0,7\n" := by
      decide +kernel
    rw [← hempty, ← hconstraint]
    exact .unpackIndex (@findsIndex_of_storedIndex few _ ⟨[], [⟨5, ⟨0⟩, 7⟩]⟩ 0 1 rfl
      rfl rfl)
  have hnone : Yields few Settings.standard (.unpackIndex "none" "out" "/dev/full")
      [("out", Table.mappingTable false (SortedMappings.ofList []).toList),
        ("/dev/full", [])] :=
    .unpackIndex (@findsIndex_of_storedIndex few _ ⟨[], []⟩ 0 0 rfl rfl rfl)
  refine ⟨?_, ?_, ?_, ?_, ?_, ?_⟩
  · exact hpack _ [0, 1] hids (by simp) (by simp)
  · exact hpack _ (List.replicate 70000 1)
      ((findsRows_iff rfl).mpr (Table.read_idTable _ _))
      (fun id hid => by rw [List.eq_of_mem_replicate hid]; decide)
      (by rw [List.length_replicate]; norm_num)
  · obtain ⟨-, hruns, -⟩ := exit_zero_iff_output_complete few none
      ["unpack-index", "one", "out", "/dev/full"]
      ⟨none, false, false, .unpackIndex "one" "out" "/dev/full"⟩
      (by decide +kernel) (by decide)
    exact hruns _ _ _ _ rfl (hone "out" "/dev/full")
      (List.mem_cons_of_mem _ List.mem_cons_self) (by decide +kernel) (hfull _)
  · obtain ⟨hruns, -⟩ := exit_zero_iff_output_complete few none
      ["unpack-index", "none", "out", "/dev/full"]
      ⟨none, false, false, .unpackIndex "none" "out" "/dev/full"⟩
      (by decide +kernel) (by decide)
    have hafter : (run few none
        ["unpack-index", "none", "out", "/dev/full"]).directory =
          few.insert ["out"] (.file []) := by
      decide +kernel
    refine hruns.mpr ⟨Settings.standard, _, rfl, hnone, rfl, ?_⟩
    rw [hempty, hafter]
    exact .cons hout (.cons (.device (hout.deviceAt (hfull _)) fun _ => rfl) .nil)
  · obtain ⟨-, -, hruns⟩ := exit_zero_iff_output_complete few none
      ["pack", "ids", "short", "--segments", "2"]
      ⟨none, false, false, .pack "ids" "short" 2⟩ (by decide +kernel) (by decide)
    have hstored : Segmentation.storedHeader ⟨2, UInt32.ofNat 2⟩ ++
        Segmentation.storedWords #[4].toList =
          [2, 0, 0, 0, 2, 0, 0, 0, 4, 0, 0, 0] := by
      decide +kernel
    have hwords : Segmentation.pack [0, 1] 2 = .ok #[4] := by decide +kernel
    have hemits := @Segmentation.emits_write [0, 1] 2 #[4] 2 2 rfl rfl hwords
    rw [hstored] at hemits
    have hshort : few.LeadsToFile "short" ["short"] :=
      Directory.leadsToFile_of_absent rfl rfl
    exact hruns _ _ _ rfl (.pack hids hemits) (.here (.file hshort (by decide +kernel)))
  · obtain ⟨-, -, hruns⟩ := exit_zero_iff_output_complete few none
      ["unpack-index", "one", "out", "late"]
      ⟨none, false, false, .unpackIndex "one" "out" "late"⟩ (by decide +kernel)
      (by decide)
    have hlate : (few.insert ["out"] (.file [])).LeadsToFile "late" ["late"] :=
      Directory.leadsToFile_of_absent rfl rfl
    exact hruns _ _ _ rfl (hone "out" "late")
      (.later hout (.here (.file hlate (by decide +kernel))))

end

end Command

end PackedTopology
