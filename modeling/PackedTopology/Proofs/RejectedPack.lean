import PackedTopology.Proofs.SegmentationCommands

/-!
# What a rejected pack leaves behind

A command opens its output before the record is checked, and opening a file
empties it.  So a file that stood there is lost when the record is rejected:
nothing is left of it if the segment count has no width or a vertex repeats, and
a header without ids if an id is out of range.  Nothing else changes.
-/

namespace PackedTopology

theorem Writer.Pours.step_empty {α : Type} {action : Action Writer α}
    {bytes : List UInt8} {result : Except Fault α}
    (hpours : Writer.Pours action bytes result) :
    action.step (.empty .unbounded) =
      (result, (Writer.empty .unbounded).after bytes) := by
  apply hpours.step_of_fits
  rw [Writer.Fits, Writer.accepted_of_none rfl]

namespace Command

variable {directory : Directory} {settings : Settings} {place : Place}
  {logVariable : Option String} {invocation : Invocation} {left : List UInt8}
  {fault : Fault}

/-! ## Segmentations -/

section

variable {input output : String} {ids : List UInt32} {segments : ℕ}

theorem spoils_of_pack
    (hrequest : invocation.request = .pack input output segments)
    (hids : FindsIds settings directory input ids)
    (hplace : directory.FileAt output place)
    (hpours : Writer.Pours (Segmentation.write ids segments) left (.error fault)) :
    (runWith directory logVariable invocation settings).Spoils directory place
      (Complaint.ofFault "packing segmentation" fault) left := by
  have hpack := comesTo_pack_of_error hids hplace.createOutput hpours.step_empty
  rw [Writer.content_after, Writer.content_empty, List.nil_append] at hpack
  exact runWith_of_spoilt hrequest hplace hpack

end

/-! ## Indexes -/

section

variable {mapping constraints output : String} {index : PersistenceIndex}

theorem comesTo_packIndex_of_error {opened : Directory.Output}
    {emptied : Directory} {writer : Writer}
    (hmapping : FindsRows Table.readMappingEntry settings directory mapping
      index.mapping)
    (hconstraints : FindsRows Table.readConstraint settings directory constraints
      index.constraints)
    (hcreate : directory.createOutput output = .ok (opened, emptied))
    (hwrite : index.write.step (.empty opened.medium) = (.error fault, writer)) :
    Task.ComesTo (packIndex settings mapping constraints output) directory
      (.error (Complaint.ofFault "packing persistence index" fault))
      (emptied.store opened writer.content) "" := by
  refine hmapping.bind (hconstraints.bind ?_)
  exact (comesTo_writeTo_of_error hcreate hwrite).bind_error

theorem spoils_of_packIndex
    (hrequest : invocation.request = .packIndex mapping constraints output)
    (hmapping : FindsRows Table.readMappingEntry settings directory mapping
      index.mapping)
    (hconstraints : FindsRows Table.readConstraint settings directory constraints
      index.constraints)
    (hplace : directory.FileAt output place)
    (hpours : Writer.Pours index.write left (.error fault)) :
    (runWith directory logVariable invocation settings).Spoils directory place
      (Complaint.ofFault "packing persistence index" fault) left := by
  have hpack := comesTo_packIndex_of_error hmapping hconstraints
    hplace.createOutput hpours.step_empty
  rw [Writer.content_after, Writer.content_empty, List.nil_append] at hpack
  exact runWith_of_spoilt hrequest hplace hpack

end

/-! ## Rejections -/

/-- Whatever file stood at the output is replaced when a record is rejected. -/
theorem rejected_pack_spoils_output (directory : Directory)
    (logVariable : Option String) (settings : Settings) (packing : Invocation)
    (output : String) (place : Place) (hplace : directory.FileAt output place) :
    let packed := runWith directory logVariable packing settings
    (∀ (input : String) (segments : ℕ) (ids : List UInt32),
      packing.request = .pack input output segments →
      FindsIds settings directory input ids → ids.length < 2 ^ 32 →
      (∀ fault, fieldWidth segments = .error fault →
        packed.Spoils directory place
          (Complaint.ofFault "packing segmentation" fault) []) ∧
      ((∃ width, fieldWidth segments = .ok width) →
        (∃ id ∈ ids, segments ≤ id.toNat) →
        ∃ (index : ℕ) (hindex : index < ids.length),
          segments ≤ ids[index].toNat ∧
          (∀ (earlier : ℕ) (hearlier : earlier < ids.length), earlier < index →
            ids[earlier].toNat < segments) ∧
          packed.Spoils directory place
            (Complaint.ofFault "packing segmentation"
              (.idOutOfRange index ids[index] segments))
            (Segmentation.storedHeader
              ⟨.ofNat ids.length, .ofNat segments⟩))) ∧
    (∀ (mapping constraints : String) (index : PersistenceIndex)
        (vertex : Int32),
      packing.request = .packIndex mapping constraints output →
      FindsRows Table.readMappingEntry settings directory mapping
        index.mapping →
      FindsRows Table.readConstraint settings directory constraints
        index.constraints →
      index.mapping.length < 2 ^ 32 → index.constraints.length < 2 ^ 32 →
      PersistenceIndex.firstRepeat (index.mapping.map MappingEntry.vertex) =
        some vertex →
      packed.Spoils directory place
        (Complaint.ofFault "packing persistence index"
          (.repeatedVertex vertex)) []) := by
  intro packed
  constructor
  · intro input segments ids hrequest hids hlength
    have hcount := Segmentation.countField_of_lt hlength .segmentationHeader
    constructor
    · intro fault hwidth
      exact spoils_of_pack hrequest hids hplace
        (Segmentation.pours_write_of_width hcount hwidth)
    · rintro ⟨width, hwidth⟩ ⟨id, hid, hlarge⟩
      obtain ⟨index, hindex, hsegments, hearlier, hpack⟩ :=
        Segmentation.exists_pack_error hwidth
          fun hids => Nat.not_lt_of_le hlarge (hids id hid)
      refine ⟨index, hindex, hsegments, fun earlier _ => hearlier earlier, ?_⟩
      exact spoils_of_pack hrequest hids hplace
        (Segmentation.pours_write_of_ids hcount hwidth hpack)
  · intro mapping constraints index vertex hrequest hmapping hconstraints hmappings
      hcounts hrepeat
    have hfields : PersistenceIndex.countFields index.mapping.length
        index.constraints.length =
          .ok (.ofNat index.mapping.length, .ofNat index.constraints.length) := by
      rw [PersistenceIndex.countFields, Segmentation.countField_of_lt hmappings,
        Segmentation.countField_of_lt hcounts]
      rfl
    have hvertices : PersistenceIndex.checkVertices index.mapping =
        .error (.repeatedVertex vertex) := by
      rw [PersistenceIndex.checkVertices, hrepeat]
    exact spoils_of_packIndex hrequest hmapping hconstraints hplace
      (PersistenceIndex.pours_write_of_vertices hfields hvertices)

/-- An id, a segment count and a mapping that are rejected. -/
theorem rejected_pack_spoils_output_samples :
    let directory : Directory :=
      ⟨[(["ids.csv"], .file (Text.encode "0\n7\n")),
        (["mapping.csv"], .file (Text.encode "1,2\n1,3\n")),
        (["constraints.csv"], .file []), (["out"], .file [1, 2, 3])], [], []⟩
    let spoils (request : Request) (complaint : Complaint) (left : List UInt8) :=
      (runWith directory none ⟨none, false, false, request⟩
        Settings.standard).Spoils directory ["out"] complaint left
    spoils (.pack "ids.csv" "out" 4)
        (Complaint.ofFault "packing segmentation" (.idOutOfRange 1 7 4))
        [2, 0, 0, 0, 4, 0, 0, 0] ∧
      spoils (.pack "ids.csv" "out" 0)
        (Complaint.ofFault "packing segmentation" (.undefinedWidth 0)) [] ∧
      spoils (.packIndex "mapping.csv" "constraints.csv" "out")
        (Complaint.ofFault "packing persistence index" (.repeatedVertex 1)) [] := by
  intro directory spoils
  have hplace : directory.FileAt "out" ["out"] :=
    Directory.fileAt_of_file (by decide) rfl rfl
  have hids : FindsIds Settings.standard directory "ids.csv" [0, 7] :=
    (findsRows_iff rfl).mpr (by decide +kernel)
  have hmapping : FindsRows Table.readMappingEntry Settings.standard directory
      "mapping.csv" [⟨1, ⟨0x4000000000000000⟩⟩, ⟨1, ⟨0x4008000000000000⟩⟩] :=
    (findsRows_iff rfl).mpr (by decide +kernel)
  have hconstraints : FindsRows Table.readConstraint Settings.standard directory
      "constraints.csv" [] :=
    (findsRows_iff rfl).mpr (by decide +kernel)
  refine ⟨?_, ?_, ?_⟩
  · obtain ⟨hpack, -⟩ := rejected_pack_spoils_output directory none
      Settings.standard ⟨none, false, false, .pack "ids.csv" "out" 4⟩ "out" _ hplace
    obtain ⟨index, hindex, hsegments, -, hspoils⟩ :=
      (hpack "ids.csv" 4 [0, 7] rfl hids (by decide)).2 ⟨3, rfl⟩
        ⟨7, by decide, by decide⟩
    rcases index with _ | _ | index
    · simp at hsegments
    · exact hspoils
    · exact absurd hindex (by simp)
  · obtain ⟨hpack, -⟩ := rejected_pack_spoils_output directory none
      Settings.standard ⟨none, false, false, .pack "ids.csv" "out" 0⟩ "out" _ hplace
    exact (hpack "ids.csv" 0 [0, 7] rfl hids (by decide)).1 _ rfl
  · obtain ⟨-, hpack⟩ := rejected_pack_spoils_output directory none
      Settings.standard
      ⟨none, false, false, .packIndex "mapping.csv" "constraints.csv" "out"⟩ "out" _
      hplace
    exact hpack "mapping.csv" "constraints.csv" ⟨_, _⟩ 1 rfl hmapping hconstraints
      (by decide) (by decide) (by decide +kernel)

/-- A record with room for the ids is lost to a segment count that is too
small. -/
theorem rejected_pack_destroys_record :
    let directory : Directory :=
      ⟨[(["ids.csv"], .file (Text.encode "0\n7\n")),
        (["out.seg"], .file [2, 0, 0, 0, 8, 0, 0, 0, 112, 0, 0, 0])], [], []⟩
    let packed := runWith directory none
      ⟨none, false, false, .pack "ids.csv" "out.seg" 4⟩ Settings.standard
    packed.exit = 1 ∧
      packed.failure = some
        ("packing segmentation: segment id 7 at vertex 1 is out of range for " ++
          "4 segments. Raise --segments or fix the input.") ∧
      directory.find "out.seg" =
        .ok (.file [2, 0, 0, 0, 8, 0, 0, 0, 112, 0, 0, 0]) ∧
      packed.directory.find "out.seg" = .ok (.file [2, 0, 0, 0, 4, 0, 0, 0]) := by
  decide +kernel

end Command

end PackedTopology
