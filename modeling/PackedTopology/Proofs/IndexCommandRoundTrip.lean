import PackedTopology.Proofs.CompleteOutput

/-!
# Packing and unpacking indices with commands

Packing an index takes two tables, and unpacking gives two tables back.  The
entries of the mapping come back by vertex and the constraints as they were given.
Their values come back bit by bit, except that all not-a-numbers look alike in a
table.  From the second round on nothing changes any more: entries that stand by
vertex stay where they are, and what was read of a table is written as before.
-/

namespace PackedTopology

namespace PersistenceIndex

/-- An index that can be written: its lists fit their counts, and no vertex of its
mapping repeats. -/
structure Admissible (index : PersistenceIndex) : Prop where
  counts : ∃ fields, countFields index.mapping.length index.constraints.length =
    .ok fields
  distinct : (index.mapping.map MappingEntry.vertex).Nodup

/-- The stored form of an index. -/
structure Stores (index : PersistenceIndex) (bytes : List UInt8)
    (decoded : DecodedIndex) : Prop where
  emits : Writer.Emits index.write bytes decoded.size
  consumes : Reader.Consumes read bytes decoded
  mappings_eq : decoded.mappings = .ofList index.mapping
  constraints_eq : decoded.constraints.toList = index.constraints

variable {index : PersistenceIndex}

theorem admissible_of_emits {bytes : List UInt8} {size : ℕ}
    (hemits : Writer.Emits index.write bytes size) : index.Admissible := by
  have haccepted := congrArg Prod.fst (hemits (.empty .unbounded) rfl)
  obtain ⟨_, _, hcounts, hdistinct⟩ := exists_countFields_of_step_write haccepted
  exact ⟨⟨_, hcounts⟩, hdistinct⟩

theorem Admissible.exists_stores (hindex : index.Admissible) :
    ∃ bytes decoded, index.Stores bytes decoded := by
  obtain ⟨⟨fields, hcounts⟩, hdistinct⟩ := hindex
  obtain ⟨hmapping, hconstraints⟩ := countFields_eq_ok hcounts
  exact ⟨_, _, emits_write hcounts hdistinct, consumes_read hmapping hconstraints,
    rfl, Constraints.toList_ofList index.constraints⟩

theorem Stores.step_read {bytes : List UInt8} {decoded : DecodedIndex}
    (hstores : index.Stores bytes decoded) :
    (read.step (.ofList bytes)).1 = .ok decoded := by
  have hread := hstores.consumes [] 0
  rw [List.append_nil, ← Reader.ofList_eq_holding] at hread
  exact congrArg Prod.fst hread

/-- The index that is read from the tables of an index. -/
def readBack (index : PersistenceIndex) : PersistenceIndex :=
  ⟨(SortedMappings.ofList index.mapping).toList.map MappingEntry.readBack,
    index.constraints.map Constraint.readBack⟩

theorem Admissible.readBack (hindex : index.Admissible) :
    index.readBack.Admissible := by
  have hperm := SortedMappings.toList_ofList_perm index.mapping
  refine ⟨?_, ?_⟩
  · obtain ⟨fields, hcounts⟩ := hindex.counts
    refine ⟨fields, ?_⟩
    rw [PersistenceIndex.readBack, List.length_map, List.length_map,
      hperm.length_eq, hcounts]
  · have hvertices := (hperm.map MappingEntry.vertex).nodup_iff.mpr hindex.distinct
    rw [PersistenceIndex.readBack, List.map_map]
    exact hvertices

/-- Entries by vertex stay by vertex when they are read back. -/
theorem Admissible.toList_readBack (hindex : index.Admissible) :
    (SortedMappings.ofList index.readBack.mapping).toList =
      index.readBack.mapping := by
  apply SortedMappings.toList_ofList_of_pairwise_lt
  have hsorted := SortedMappings.toList_ofList_pairwise_lt hindex.distinct
  exact List.pairwise_map.mpr hsorted

end PersistenceIndex

namespace Command

open PackedTopology.Command.Task PersistenceIndex

variable {directory : Directory} {settings : Settings} {logVariable : Option String}
  {invocation : Invocation} {place elsewhere : Place}

/-! ## Packing -/

section

variable {mapping constraints output : String} {index : PersistenceIndex}

/-- The index that a command finds in two tables. -/
structure FindsTables (settings : Settings) (directory : Directory)
    (mapping constraints : String) (index : PersistenceIndex) : Prop where
  mapping : FindsRows Table.readMappingEntry settings directory mapping index.mapping
  constraints : FindsRows Table.readConstraint settings directory constraints
    index.constraints

theorem run_packIndex {bytes : List UInt8} {size : ℕ}
    (hrequest : invocation.request = .packIndex mapping constraints output)
    (htables : FindsTables settings directory mapping constraints index)
    (hemits : Writer.Emits index.write bytes size)
    (hplace : directory.FileAt output place) :
    (runWith directory logVariable invocation settings).Writes directory output place
      bytes := by
  have hyields : Yields directory settings (.packIndex mapping constraints output)
      [(output, bytes)] := .packIndex htables.mapping htables.constraints hemits
  exact writes_of_delivers hrequest hplace hyields.delivers

/-- A run that packs into a file and does not fail finds an index in its tables,
and leaves its stored form in the file. -/
theorem exists_index_of_packIndex
    (hrequest : invocation.request = .packIndex mapping constraints output)
    (hplace : directory.FileAt output place)
    (hexit : (runWith directory logVariable invocation settings).exit = 0) :
    ∃ index bytes decoded, FindsTables settings directory mapping constraints index ∧
      index.Admissible ∧ index.Stores bytes decoded ∧
      (runWith directory logVariable invocation settings).Writes directory output
        place bytes := by
  have hwrites : invocation.request.outputPaths ≠ [] := by
    rw [hrequest]
    exact List.cons_ne_nil _ _
  obtain ⟨outputs, hyields⟩ | ⟨after, hstops⟩ :=
    exists_yields_or_stops directory settings hwrites
  · rw [hrequest] at hyields
    cases hyields with
    | packIndex hmapping hconstraints hemits =>
        have hindex := admissible_of_emits hemits
        obtain ⟨bytes, decoded, hstores⟩ := hindex.exists_stores
        exact ⟨_, bytes, decoded, ⟨hmapping, hconstraints⟩, hindex, hstores,
          run_packIndex hrequest ⟨hmapping, hconstraints⟩ hstores.emits hplace⟩
  · rw [(runWith_of_stops rfl hstops).1] at hexit
    cases hexit

end

/-! ## Unpacking -/

section

variable {input mapping constraints : String} {bytes : List UInt8}
  {index : PersistenceIndex} {decoded : DecodedIndex}

/-- A run that does not fail and leaves the two tables of an index in two files. -/
structure Outcome.WritesTables (outcome : Outcome) (settings : Settings)
    (directory : Directory) (mapping constraints : String)
    (index : PersistenceIndex) : Prop where
  exit_eq : outcome.exit = 0
  find_mapping : outcome.directory.find mapping =
    .ok (.file (Table.mappingTable settings.csvHeaders
      (SortedMappings.ofList index.mapping).toList))
  find_constraints : outcome.directory.find constraints =
    .ok (.file (Table.constraintTable settings.csvHeaders index.constraints))
  keeps_fileAt : ∀ path place, directory.FileAt path place →
    outcome.directory.FileAt path place

theorem run_unpackIndex
    (hrequest : invocation.request = .unpackIndex input mapping constraints)
    (hfile : directory.find input = .ok (.file bytes))
    (hstores : index.Stores bytes decoded)
    (hmapping : directory.FileAt mapping place)
    (hconstraints : directory.FileAt constraints elsewhere)
    (hdistinct : place ≠ elsewhere) :
    (runWith directory logVariable invocation settings).WritesTables settings
      directory mapping constraints index := by
  have hindex : FindsIndex directory input decoded := by
    have hread := comesTo_readFrom "unpacking persistence index"
      PersistenceIndex.read hfile
    rwa [hstores.step_read] at hread
  have hyields : Yields directory settings (.unpackIndex input mapping constraints)
      _ := .unpackIndex hindex
  have hsecond := hconstraints.after_insert hmapping
    (Table.mappingTable settings.csvHeaders decoded.mappings.toList)
  obtain ⟨hexit, -, -, hafter⟩ := @runWith_of_ok _ logVariable _ _ settings _ _
    hrequest (hyields.delivers.comesTo _
      (.cons (hmapping.accepts _) (.cons (hsecond.accepts _) .nil)))
  rw [hstores.constraints_eq] at hafter
  rw [hstores.mappings_eq] at hafter hsecond
  have hfirst := hmapping.after_insert hmapping
    (Table.mappingTable settings.csvHeaders
      (SortedMappings.ofList index.mapping).toList)
  refine ⟨hexit, ?_, ?_, ?_⟩
  · rw [hafter, hfirst.find_insert_of_ne hsecond.toLeadsToFile hdistinct,
      hmapping.find_insert]
  · rw [hafter, hsecond.find_insert]
  · intro path other hother
    rw [hafter]
    exact (hother.after_insert hmapping _).after_insert hsecond _

/-- The tables that were written are found again, by vertex and with one
not-a-number for all. -/
theorem Outcome.WritesTables.findsTables {outcome : Outcome}
    (hwrites : outcome.WritesTables settings directory mapping constraints index) :
    FindsTables settings outcome.directory mapping constraints index.readBack where
  mapping := (findsRows_iff hwrites.find_mapping).mpr
    (Table.read_mappingTable settings.csvHeaders _)
  constraints := (findsRows_iff hwrites.find_constraints).mpr
    (Table.read_constraintTable settings.csvHeaders _)

/-- The tables of an index that was read back are the tables it was read from. -/
theorem Outcome.WritesTables.of_readBack {outcome : Outcome}
    (hindex : index.Admissible)
    (hwrites : outcome.WritesTables settings directory mapping constraints
      index.readBack) :
    outcome.WritesTables settings directory mapping constraints index := by
  obtain ⟨hexit, hmapping, hconstraints, hkeeps⟩ := hwrites
  rw [hindex.toList_readBack, PersistenceIndex.readBack,
    Table.mappingTable_readBack] at hmapping
  rw [PersistenceIndex.readBack, Table.constraintTable_readBack] at hconstraints
  exact ⟨hexit, hmapping, hconstraints, hkeeps⟩

end

/-! ## There and back -/

/-- Two tables that were packed come back by vertex and in order.  Each row is read
as what was packed, up to the bits of not-a-numbers, and packing the tables that
came back gives the same tables again.  The two outputs of a command must be
different files; otherwise the paths may lead to any files. -/
theorem unpackIndex_packIndex_normal_form (logVariable : Option String)
    {settings : Settings} {directory : Directory}
    {packing unpacking repacking reunpacking : Invocation}
    {mapping constraints binary mappingCsv constraintCsv again mappingLast
      constraintLast : String} {mappingText constraintText : List UInt8}
    {binaryPlace mappingPlace constraintPlace againPlace mappingLastPlace
      constraintLastPlace : Place}
    (hpacking : packing.request = .packIndex mapping constraints binary)
    (hunpacking : unpacking.request = .unpackIndex binary mappingCsv constraintCsv)
    (hrepacking : repacking.request = .packIndex mappingCsv constraintCsv again)
    (hreunpacking :
      reunpacking.request = .unpackIndex again mappingLast constraintLast)
    (hmapping : directory.find mapping = .ok (.file mappingText))
    (hconstraints : directory.find constraints = .ok (.file constraintText))
    (hbinary : directory.FileAt binary binaryPlace)
    (hmappingCsv : directory.FileAt mappingCsv mappingPlace)
    (hconstraintCsv : directory.FileAt constraintCsv constraintPlace)
    (hdistinct : mappingPlace ≠ constraintPlace)
    (hagain : directory.FileAt again againPlace)
    (hmappingLast : directory.FileAt mappingLast mappingLastPlace)
    (hconstraintLast : directory.FileAt constraintLast constraintLastPlace)
    (hdistinctLast : mappingLastPlace ≠ constraintLastPlace)
    (haccepted :
      (runWith directory logVariable packing settings).exit = 0) :
    let packed := runWith directory logVariable packing settings
    let unpacked := runWith packed.directory logVariable unpacking settings
    let repacked := runWith unpacked.directory logVariable repacking settings
    let reunpacked := runWith repacked.directory logVariable reunpacking settings
    let named := settings.csvHeaders
    ∃ entries sorted listed,
      Table.read Table.readMappingEntry named mappingText = .ok entries ∧
      Table.read Table.readConstraint named constraintText = .ok listed ∧
      sorted.Perm entries ∧
      (sorted.Pairwise fun left right => left.vertex < right.vertex) ∧
      unpacked.exit = 0 ∧
      unpacked.directory.find mappingCsv =
        .ok (.file (Table.mappingTable named sorted)) ∧
      unpacked.directory.find constraintCsv =
        .ok (.file (Table.constraintTable named listed)) ∧
      Table.read Table.readMappingEntry named (Table.mappingTable named sorted) =
        .ok (sorted.map MappingEntry.readBack) ∧
      Table.read Table.readConstraint named (Table.constraintTable named listed) =
        .ok (listed.map Constraint.readBack) ∧
      repacked.exit = 0 ∧
      reunpacked.exit = 0 ∧
      reunpacked.directory.find mappingLast =
        .ok (.file (Table.mappingTable named sorted)) ∧
      reunpacked.directory.find constraintLast =
        .ok (.file (Table.constraintTable named listed)) := by
  intro packed unpacked repacked reunpacked named
  obtain ⟨index, bytes, decoded, htables, hindex, hstores, hpacked⟩ :=
    exists_index_of_packIndex hpacking hbinary haccepted
  have hunpacked : unpacked.WritesTables settings packed.directory mappingCsv
      constraintCsv index :=
    run_unpackIndex hunpacking hpacked.find_eq hstores
      (hpacked.keeps_fileAt hmappingCsv) (hpacked.keeps_fileAt hconstraintCsv)
      hdistinct
  have hkeeps : ∀ {path place}, directory.FileAt path place →
      unpacked.directory.FileAt path place := fun hfile =>
    hunpacked.keeps_fileAt _ _ (hpacked.keeps_fileAt hfile)
  -- From here on the tables are ones that were written, no longer the user's.
  obtain ⟨bytesAgain, decodedAgain, hstoresAgain⟩ := hindex.readBack.exists_stores
  have hrepacked : repacked.Writes unpacked.directory again againPlace bytesAgain :=
    run_packIndex hrepacking hunpacked.findsTables hstoresAgain.emits (hkeeps hagain)
  have hreunpacked : reunpacked.WritesTables settings repacked.directory mappingLast
      constraintLast index :=
    .of_readBack hindex <| run_unpackIndex hreunpacking hrepacked.find_eq hstoresAgain
      (hrepacked.keeps_fileAt (hkeeps hmappingLast))
      (hrepacked.keeps_fileAt (hkeeps hconstraintLast)) hdistinctLast
  exact ⟨index.mapping, (SortedMappings.ofList index.mapping).toList,
    index.constraints, (findsRows_iff hmapping).mp htables.mapping,
    (findsRows_iff hconstraints).mp htables.constraints,
    SortedMappings.toList_ofList_perm index.mapping,
    SortedMappings.toList_ofList_pairwise_lt hindex.distinct, hunpacked.exit_eq,
    hunpacked.find_mapping, hunpacked.find_constraints,
    Table.read_mappingTable _ _, Table.read_constraintTable _ _, hrepacked.exit_eq,
    hreunpacked.exit_eq, hreunpacked.find_mapping, hreunpacked.find_constraints⟩

/-- Two values by name, one of them no number, and no constraint behind the names:
the values come back by vertex, and without a row there are no names. -/
theorem unpackIndex_packIndex_normal_form_two_values :
    let directory : Directory :=
      ⟨[(["values"], .file (Text.encode "value,vertex\nnan,3\n1e-7,-2\n")),
        (["pins"], .file (Text.encode "vertex,value,kind\n"))], [], []⟩
    let settings : Settings := ⟨3, true, ""⟩
    let packed := runWith directory none
      ⟨none, false, false, .packIndex "values" "pins" "index"⟩ settings
    let unpacked := runWith packed.directory none
      ⟨none, false, false, .unpackIndex "index" "values.csv" "pins.csv"⟩ settings
    let repacked := runWith unpacked.directory none
      ⟨none, false, false, .packIndex "values.csv" "pins.csv" "again"⟩ settings
    let reunpacked := runWith repacked.directory none
      ⟨none, false, false, .unpackIndex "again" "values" "pins"⟩ settings
    let values := Text.encode "vertex,value\n-2,1e-7\n3,NaN\n"
    unpacked.directory.find "values.csv" = .ok (.file values) ∧
      unpacked.directory.find "pins.csv" = .ok (.file []) ∧
      reunpacked.directory.find "values" = .ok (.file values) ∧
      reunpacked.directory.find "pins" = .ok (.file []) := by
  intro directory settings packed unpacked repacked reunpacked values
  have hpacks : packed.exit = 0 := by
    unfold packed directory settings
    decide +kernel
  obtain ⟨entries, sorted, listed, hentries, hlisted, hperm, hpairwise, -, hmapping,
      hconstraints, -, -, -, -, hmappingLast, hconstraintLast⟩ :=
    @unpackIndex_packIndex_normal_form none settings directory
      ⟨none, false, false, .packIndex "values" "pins" "index"⟩
      ⟨none, false, false, .unpackIndex "index" "values.csv" "pins.csv"⟩
      ⟨none, false, false, .packIndex "values.csv" "pins.csv" "again"⟩
      ⟨none, false, false, .unpackIndex "again" "values" "pins"⟩
      "values" "pins" "index" "values.csv" "pins.csv" "again" "values" "pins" _ _
      ["index"] ["values.csv"] ["pins.csv"] ["again"] ["values"] ["pins"]
      rfl rfl rfl rfl rfl rfl
      (Directory.fileAt_of_absent (by decide) (by decide) rfl)
      (Directory.fileAt_of_absent (by decide) (by decide) rfl)
      (Directory.fileAt_of_absent (by decide) (by decide) rfl) (by decide)
      (Directory.fileAt_of_absent (by decide) (by decide) rfl)
      (Directory.fileAt_of_file (by decide) rfl rfl)
      (Directory.fileAt_of_file (by decide) rfl rfl) (by decide) hpacks
  have hfound : Table.read Table.readMappingEntry true
      (Text.encode "value,vertex\nnan,3\n1e-7,-2\n") =
        .ok [⟨3, Scalar.readNaN⟩, ⟨-2, ⟨0x3e7ad7f29abcaf48⟩⟩] := by
    decide +kernel
  have hnone : Table.read Table.readConstraint true
      (Text.encode "vertex,value,kind\n") = .ok [] := by
    decide +kernel
  obtain rfl := Except.ok.inj (hfound.symm.trans hentries)
  obtain rfl := Except.ok.inj (hnone.symm.trans hlisted)
  obtain rfl : sorted = [⟨-2, ⟨0x3e7ad7f29abcaf48⟩⟩, ⟨3, Scalar.readNaN⟩] := by
    refine List.Perm.eq_of_pairwise ?_ hpairwise (by decide)
      (hperm.trans (.swap _ _ _))
    intro left right _ _ hlt hgt
    exact absurd hgt (Int32.lt_asymm hlt)
  have hvalues : Table.mappingTable true
      [⟨-2, ⟨0x3e7ad7f29abcaf48⟩⟩, ⟨3, Scalar.readNaN⟩] = values := by
    unfold values
    decide +kernel
  have hpins : Table.constraintTable true [] = [] := rfl
  have hnamed : settings.csvHeaders = true := rfl
  rw [hnamed, hvalues] at hmapping hmappingLast
  rw [hnamed, hpins] at hconstraints hconstraintLast
  exact ⟨hmapping, hconstraints, hmappingLast, hconstraintLast⟩

end Command

end PackedTopology
