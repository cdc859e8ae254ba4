import PackedTopology.Proofs.Pouring
import PackedTopology.Proofs.Task

/-!
# Outputs of any room

A medium refuses bytes while they are written, or at the last when it is
flushed, and a command looks at both.  Either an output takes all that is meant
for it, or it refuses and is left with the front that it has room for.  Outputs
are written one after the other, so a command gets through all of them or it
breaks off at the first one that refuses.
-/

namespace PackedTopology

/-! ## Media -/

namespace Medium

variable {medium : Medium} {bytes : List UInt8}

/-- A medium that holds nothing has room for some bytes. -/
def TakesAll (medium : Medium) (bytes : List UInt8) : Prop :=
  ∀ limit ∈ medium.limit, bytes.length ≤ limit

instance (medium : Medium) (bytes : List UInt8) :
    Decidable (medium.TakesAll bytes) :=
  inferInstanceAs (Decidable (∀ limit ∈ medium.limit, bytes.length ≤ limit))

theorem takesAll_unbounded (bytes : List UInt8) : unbounded.TakesAll bytes :=
  nofun

theorem takesAll_buffered_iff {capacity buffer : ℕ} :
    (buffered capacity buffer).TakesAll bytes ↔ bytes.length ≤ capacity := by
  simp [TakesAll, limit]

theorem kept_of_takesAll (htakes : medium.TakesAll bytes) :
    medium.kept bytes = bytes := by
  unfold kept
  split
  · rfl
  · rename_i limit hlimit
    exact List.take_of_length_le (htakes limit hlimit)

/-- A medium takes no less than it keeps before it refuses. -/
theorem kept_fitting (medium : Medium) (bytes : List UInt8) :
    medium.kept (medium.fitting 0 bytes) = medium.kept bytes := by
  cases medium <;> simp [kept, limit, fitting, room, List.take_take]

end Medium

namespace Writer

variable {medium : Medium} {bytes : List UInt8}

theorem fits_empty_iff :
    (empty medium).Fits bytes ↔ ∀ room ∈ medium.room, bytes.length ≤ room := by
  cases hroom : medium.room <;>
    simp [Fits, accepted, Medium.fitting, empty, hroom]

theorem fits_of_takesAll (htakes : medium.TakesAll bytes) :
    (empty medium).Fits bytes := by
  rw [fits_empty_iff]
  cases medium with
  | unbounded => exact nofun
  | bounded capacity => exact htakes
  | buffered capacity buffer =>
      have hlimit := Medium.takesAll_buffered_iff.mp htakes
      simp only [Medium.room, Option.mem_def, Option.some.injEq, forall_eq']
      omega

theorem size_taken_empty_after (medium : Medium) (bytes : List UInt8) :
    ((empty medium).after bytes).taken.size = bytes.length := by
  simp [size_taken_after, empty]

theorem step_flush_of_takesAll (htakes : medium.TakesAll bytes) :
    flush.step ((empty medium).after bytes) =
      (.ok (), (empty medium).after bytes) := by
  cases medium with
  | unbounded | bounded => rfl
  | buffered capacity buffer =>
      have hlimit := Medium.takesAll_buffered_iff.mp htakes
      rw [← size_taken_empty_after (.buffered capacity buffer)] at hlimit
      exact if_neg hlimit.not_gt

/-- What fits is refused at the flush if it is refused at all. -/
theorem step_flush_of_fits (hfits : (empty medium).Fits bytes)
    (hrefuses : ¬medium.TakesAll bytes) :
    flush.step ((empty medium).after bytes) =
      (.error (.device medium.refusal), (empty medium).after bytes) := by
  cases medium with
  | unbounded => exact absurd (Medium.takesAll_unbounded bytes) hrefuses
  | bounded capacity => exact absurd (fits_empty_iff.mp hfits) hrefuses
  | buffered capacity buffer =>
      have hlimit := mt Medium.takesAll_buffered_iff.mpr hrefuses
      rw [← size_taken_empty_after (.buffered capacity buffer)] at hlimit
      exact if_pos (Nat.lt_of_not_le hlimit)

end Writer

/-! ## What stands at a path -/

namespace Directory

variable {directory middle after : Directory} {path : String} {bytes : List UInt8}

theorem Device.takesAll_medium_iff {device : Device} :
    (Device.medium device).TakesAll bytes ↔ (device = .full → bytes = []) := by
  cases device <;> simp [Device.medium, Medium.TakesAll, Medium.limit]

/-- Stored bytes are cut to what the output has room for, whether or not all of
them reached it. -/
theorem store_accepted (output : Output) (bytes : List UInt8) :
    directory.store output ((Writer.empty output.medium).accepted bytes) =
      directory.store output bytes := by
  have hkept := output.medium.kept_fitting bytes
  unfold store
  split
  · rfl
  · exact congrArg (directory.insert _ <| .file ·) hkept

/-- The output at a path takes all of some bytes: a file holds them then, and a
device lets them go, unless it is the one without room. -/
inductive Accepts (directory : Directory) (path : String) (bytes : List UInt8) :
    Directory → Prop
  | file {place : Place} (hplace : LeadsToFile directory path place)
      (hroom : (directory.medium place).TakesAll bytes) :
      Accepts directory path bytes (directory.insert place (.file bytes))
  | device {device : Device} (hdevice : directory.DeviceAt path device)
      (hroom : device = .full → bytes = []) :
      Accepts directory path bytes directory

/-- The output at a path does not take all of some bytes: it cannot be opened, or
its file keeps the front that it has room for, or it is the device without room. -/
inductive Refuses (directory : Directory) (path : String) (bytes : List UInt8) :
    Directory → Prop
  | closed {error : DeviceError}
      (hclosed : directory.createOutput path = .error error) :
      Refuses directory path bytes directory
  | file {place : Place} (hplace : LeadsToFile directory path place)
      (hroom : ¬(directory.medium place).TakesAll bytes) :
      Refuses directory path bytes
        (directory.insert place (.file ((directory.medium place).kept bytes)))
  | device (hdevice : directory.DeviceAt path .full) (hsome : bytes ≠ []) :
      Refuses directory path bytes directory

theorem FileAt.accepts {place : Place} (hplace : FileAt directory path place)
    (bytes : List UInt8) :
    directory.Accepts path bytes (directory.insert place (.file bytes)) :=
  .file hplace.toLeadsToFile (hplace.medium_eq ▸ Medium.takesAll_unbounded bytes)

theorem accepts_iff :
    directory.Accepts path bytes after ↔
      ∃ output emptied, directory.createOutput path = .ok (output, emptied) ∧
        output.medium.TakesAll bytes ∧ after = emptied.store output bytes := by
  constructor
  · rintro (⟨hplace, hroom⟩ | ⟨hdevice, hroom⟩)
    · refine ⟨_, _, hplace.createOutput, hroom, ?_⟩
      rw [store_insert, Medium.kept_of_takesAll hroom]
    · exact ⟨_, _, createOutput_eq_ok_iff.mpr (.inr ⟨_, hdevice, rfl, rfl⟩),
        Device.takesAll_medium_iff.mpr hroom, rfl⟩
  · rintro ⟨output, emptied, hcreate, htakes, rfl⟩
    obtain ⟨place, hplace, rfl, rfl⟩ | ⟨device, hdevice, rfl, rfl⟩ :=
      createOutput_eq_ok_iff.mp hcreate
    · rw [store_insert, Medium.kept_of_takesAll htakes]
      exact .file hplace htakes
    · exact .device hdevice (Device.takesAll_medium_iff.mp htakes)

theorem refuses_of_not_takesAll {output : Output} {emptied : Directory}
    (hcreate : directory.createOutput path = .ok (output, emptied))
    (hrefuses : ¬output.medium.TakesAll bytes) :
    directory.Refuses path bytes (emptied.store output bytes) := by
  obtain ⟨place, hplace, rfl, rfl⟩ | ⟨device, hdevice, rfl, rfl⟩ :=
    createOutput_eq_ok_iff.mp hcreate
  · rw [store_insert]
    exact .file hplace hrefuses
  · rw [Device.takesAll_medium_iff, Classical.not_imp] at hrefuses
    obtain ⟨rfl, hsome⟩ := hrefuses
    exact .device hdevice hsome

theorem Refuses.closed_or_opened (hrefuses : directory.Refuses path bytes after) :
    (∃ error, directory.createOutput path = .error error ∧ after = directory) ∨
      ∃ output emptied, directory.createOutput path = .ok (output, emptied) ∧
        ¬output.medium.TakesAll bytes ∧ after = emptied.store output bytes := by
  cases hrefuses with
  | closed hclosed => exact .inl ⟨_, hclosed, rfl⟩
  | file hplace hroom =>
      exact .inr ⟨_, _, hplace.createOutput, hroom, (store_insert _ _).symm⟩
  | device hdevice hsome =>
      refine .inr ⟨_, _, createOutput_eq_ok_iff.mpr (.inr ⟨_, hdevice, rfl, rfl⟩),
        ?_, rfl⟩
      rw [Device.takesAll_medium_iff]
      exact fun hnone => hsome (hnone rfl)

theorem accepts_or_refuses (directory : Directory) (path : String)
    (bytes : List UInt8) :
    (∃ after, directory.Accepts path bytes after) ∨
      ∃ after, directory.Refuses path bytes after := by
  cases hcreate : directory.createOutput path with
  | error error => exact .inr ⟨_, .closed hcreate⟩
  | ok created =>
      by_cases htakes : created.1.medium.TakesAll bytes
      · exact .inl ⟨_, accepts_iff.mpr ⟨_, _, hcreate, htakes, rfl⟩⟩
      · exact .inr ⟨_, refuses_of_not_takesAll hcreate htakes⟩

theorem LeadsToFile.not_deviceAt {place : Place}
    (hplace : LeadsToFile directory path place) (device : Device) :
    ¬directory.DeviceAt path device := by
  rintro ⟨other, hlocate, hnode⟩
  obtain rfl := Except.ok.inj (hlocate.symm.trans hplace.locateFile_eq)
  obtain ⟨held, hfile⟩ := hplace.file_of_node _ hnode
  cases hfile

theorem Accepts.eq_insert {place : Place}
    (haccepts : directory.Accepts path bytes after)
    (hplace : LeadsToFile directory path place) :
    after = directory.insert place (.file bytes) := by
  cases haccepts with
  | file hother hroom =>
      obtain rfl := Except.ok.inj
        (hother.locateFile_eq.symm.trans hplace.locateFile_eq)
      rfl
  | device hdevice hroom => exact absurd hdevice (hplace.not_deviceAt _)

theorem Writable.exists_accepts (hwritable : directory.Writable path)
    (bytes : List UInt8) : ∃ after, directory.Accepts path bytes after := by
  obtain ⟨output, emptied, hcreate, hmedium⟩ := hwritable
  refine ⟨_, accepts_iff.mpr ⟨output, emptied, hcreate, ?_, rfl⟩⟩
  rw [hmedium]
  exact Medium.takesAll_unbounded bytes

/-- A device stays where it is, whatever is written elsewhere. -/
theorem Accepts.deviceAt (haccepts : directory.Accepts path bytes after)
    {other : String} {device : Device} (hdevice : directory.DeviceAt other device) :
    after.DeviceAt other device := by
  cases haccepts with
  | device => exact hdevice
  | @file place hplace hroom =>
      obtain ⟨elsewhere, hlocate, hnode⟩ := hdevice
      have hne : elsewhere ≠ place := by
        rintro rfl
        exact hplace.not_deviceAt device ⟨elsewhere, hplace.locateFile_eq, hnode⟩
      refine ⟨elsewhere, (hplace.keepsFolders _).locateFile hlocate, ?_⟩
      rw [node?_insert_of_ne hne, hnode]

/-- A device without room takes nothing. -/
theorem Accepts.eq_nil (haccepts : directory.Accepts path bytes after)
    (hfull : directory.DeviceAt path .full) : bytes = [] := by
  cases haccepts with
  | file hplace hroom => exact absurd hfull (hplace.not_deviceAt _)
  | device hdevice hroom =>
      obtain ⟨place, hlocate, hnode⟩ := hfull
      obtain ⟨other, hother, hheld⟩ := hdevice
      obtain rfl := Except.ok.inj (hother.symm.trans hlocate)
      rw [hnode] at hheld
      cases hheld
      exact hroom rfl

/-- Outputs take all that is meant for them, one after the other. -/
inductive AcceptsAll : Directory → List (String × List UInt8) → Directory → Prop
  | nil {directory : Directory} : AcceptsAll directory [] directory
  | cons {directory middle after : Directory} {path : String} {bytes : List UInt8}
      {outputs : List (String × List UInt8)}
      (hfirst : directory.Accepts path bytes middle)
      (hrest : AcceptsAll middle outputs after) :
      AcceptsAll directory ((path, bytes) :: outputs) after

/-- Outputs take all that is meant for them, one after the other, up to one that
refuses; those after it are not opened. -/
inductive BreaksOff : Directory → List (String × List UInt8) → Directory → Prop
  | here {directory after : Directory} {path : String} {bytes : List UInt8}
      {outputs : List (String × List UInt8)}
      (hrefuses : directory.Refuses path bytes after) :
      BreaksOff directory ((path, bytes) :: outputs) after
  | later {directory middle after : Directory} {path : String}
      {bytes : List UInt8} {outputs : List (String × List UInt8)}
      (hfirst : directory.Accepts path bytes middle)
      (hrest : BreaksOff middle outputs after) :
      BreaksOff directory ((path, bytes) :: outputs) after

variable {outputs left right : List (String × List UInt8)}

theorem acceptsAll_or_breaksOff (directory : Directory)
    (outputs : List (String × List UInt8)) :
    (∃ after, directory.AcceptsAll outputs after) ∨
      ∃ after, directory.BreaksOff outputs after := by
  induction outputs generalizing directory with
  | nil => exact .inl ⟨directory, .nil⟩
  | cons output outputs ih =>
      obtain ⟨path, bytes⟩ := output
      obtain ⟨middle, hfirst⟩ | ⟨after, hrefuses⟩ :=
        directory.accepts_or_refuses path bytes
      · obtain ⟨after, hrest⟩ | ⟨after, hrest⟩ := ih middle
        · exact .inl ⟨after, .cons hfirst hrest⟩
        · exact .inr ⟨after, .later hfirst hrest⟩
      · exact .inr ⟨after, .here hrefuses⟩

theorem acceptsAll_singleton_iff :
    directory.AcceptsAll [(path, bytes)] after ↔
      directory.Accepts path bytes after := by
  constructor
  · rintro (_ | ⟨hfirst, _ | _⟩)
    exact hfirst
  · intro haccepts
    exact .cons haccepts .nil

theorem acceptsAll_append_iff :
    directory.AcceptsAll (left ++ right) after ↔
      ∃ middle, directory.AcceptsAll left middle ∧
        middle.AcceptsAll right after := by
  induction left generalizing directory with
  | nil =>
      constructor
      · intro hright
        exact ⟨directory, .nil, hright⟩
      · rintro ⟨_, hnil, hright⟩
        cases hnil
        exact hright
  | cons output left ih =>
      constructor
      · rintro (_ | ⟨hfirst, hrest⟩)
        obtain ⟨middle, hleft, hright⟩ := ih.mp hrest
        exact ⟨middle, .cons hfirst hleft, hright⟩
      · rintro ⟨middle, _ | ⟨hfirst, hleft⟩, hright⟩
        exact .cons hfirst (ih.mpr ⟨middle, hleft, hright⟩)

theorem BreaksOff.of_append (hbreaks : directory.BreaksOff (left ++ right) after) :
    directory.BreaksOff left after ∨
      ∃ middle, directory.AcceptsAll left middle ∧
        middle.BreaksOff right after := by
  induction left generalizing directory with
  | nil => exact .inr ⟨directory, .nil, hbreaks⟩
  | cons output left ih =>
      obtain hrefuses | ⟨hfirst, hrest⟩ := hbreaks
      · exact .inl (.here hrefuses)
      · obtain hleft | ⟨middle, hleft, hright⟩ := ih hrest
        · exact .inl (.later hfirst hleft)
        · exact .inr ⟨middle, .cons hfirst hleft, hright⟩

theorem AcceptsAll.eq_nil (haccepts : directory.AcceptsAll outputs after)
    (hfull : directory.DeviceAt path .full) (hmem : (path, bytes) ∈ outputs) :
    bytes = [] := by
  induction haccepts with
  | nil => cases hmem
  | cons hfirst hrest ih =>
      rcases List.mem_cons.mp hmem with heq | hmem
      · cases heq
        exact hfirst.eq_nil hfull
      · exact ih (hfirst.deviceAt hfull) hmem

end Directory

namespace Command

open PackedTopology.Command.Task

/-! ## Parts of a command that write -/

namespace Task

variable {α β : Type}

/-- The part ends with a complaint and leaves a directory. -/
def Stops (task : Task α) (directory after : Directory) : Prop :=
  ∃ complaint, ComesTo task directory (.error complaint) after ""

/-- The part gets all of its outputs onto their paths, or it stops at the first one
that refuses. -/
structure Delivers (task : Task α) (directory : Directory)
    (outputs : List (String × List UInt8)) (value : α) : Prop where
  comesTo : ∀ after, directory.AcceptsAll outputs after →
    ComesTo task directory (.ok value) after ""
  stops : ∀ after, directory.BreaksOff outputs after → Stops task directory after

variable {directory after : Directory} {left right : List (String × List UInt8)}

theorem Stops.bind {first : Task α} (hfirst : Stops first directory after)
    (next : α → Task β) : Stops (first >>= next) directory after := by
  obtain ⟨complaint, hcomes⟩ := hfirst
  exact ⟨complaint, hcomes.bind_error⟩

theorem Stops.bind_of_comesTo {first : Task α} {next : α → Task β} {value : α}
    {middle : Directory}
    (hfirst : ComesTo first directory (.ok value) middle "")
    (hnext : Stops (next value) middle after) :
    Stops (first >>= next) directory after := by
  obtain ⟨complaint, hcomes⟩ := hnext
  exact ⟨complaint, hfirst.bind hcomes⟩

theorem delivers_nil {task : Task α} {value : α}
    (htask : ComesTo task directory (.ok value) directory "") :
    Delivers task directory [] value where
  comesTo after haccepts := by
    cases haccepts
    exact htask
  stops after hbreaks := by cases hbreaks

/-- A part that only reads leaves the outputs to the next one. -/
theorem Delivers.after_reading {first : Task α} {next : α → Task β} {value : α}
    {result : β} (hfirst : ComesTo first directory (.ok value) directory "")
    (hnext : Delivers (next value) directory right result) :
    Delivers (first >>= next) directory right result where
  comesTo after haccepts := hfirst.bind (hnext.comesTo after haccepts)
  stops after hbreaks := Stops.bind_of_comesTo hfirst (hnext.stops after hbreaks)

theorem Delivers.bind {first : Task α} {next : α → Task β} {value : α}
    {result : β} (hfirst : Delivers first directory left value)
    (hnext : ∀ middle, Delivers (next value) middle right result) :
    Delivers (first >>= next) directory (left ++ right) result where
  comesTo after haccepts := by
    obtain ⟨middle, hleft, hright⟩ := Directory.acceptsAll_append_iff.mp haccepts
    exact (hfirst.comesTo middle hleft).bind ((hnext middle).comesTo after hright)
  stops after hbreaks := by
    obtain hleft | ⟨middle, hleft, hright⟩ := hbreaks.of_append
    · exact (hfirst.stops after hleft).bind next
    · exact Stops.bind_of_comesTo (hfirst.comesTo middle hleft)
        ((hnext middle).stops after hright)

/-- A single output decides how its part ends: it cannot be opened, or it
refuses some of the bytes, or it takes them all. -/
theorem delivers_of_output {task : Task α} {value : α} {path : String}
    {bytes : List UInt8}
    (hclosed : ∀ error, directory.createOutput path = .error error →
      Stops task directory directory)
    (hrefuses : ∀ output emptied,
      directory.createOutput path = .ok (output, emptied) →
      ¬output.medium.TakesAll bytes →
      Stops task directory (emptied.store output bytes))
    (htakes : ∀ output emptied,
      directory.createOutput path = .ok (output, emptied) →
      output.medium.TakesAll bytes →
      ComesTo task directory (.ok value) (emptied.store output bytes) "") :
    Delivers task directory [(path, bytes)] value where
  comesTo after haccepts := by
    obtain ⟨output, emptied, hcreate, hall, rfl⟩ :=
      Directory.accepts_iff.mp (Directory.acceptsAll_singleton_iff.mp haccepts)
    exact htakes output emptied hcreate hall
  stops after hbreaks := by
    obtain hfirst | ⟨-, hrest⟩ := hbreaks
    · obtain ⟨error, hcreate, rfl⟩ | ⟨output, emptied, hcreate, hmore, rfl⟩ :=
        hfirst.closed_or_opened
      · exact hclosed error hcreate
      · exact hrefuses output emptied hcreate hmore
    · cases hrest

theorem stops_createOutput {path : String} {error : DeviceError}
    (hclosed : directory.createOutput path = .error error) :
    Stops (createOutput path) directory directory := by
  refine ⟨Complaint.ofDevice "creating output file" path error, ?_⟩
  intro before messages
  refine ⟨messages, ?_⟩
  rw [String.append_empty]
  show (ensure (Complaint.ofDevice "creating output file" path)
    (directory.createOutput path) >>= fun created => do
      set (⟨created.2, before, messages⟩ : Progress)
      return created.1 : Task Directory.Output).run _ = _
  rw [hclosed]
  rfl

end Task

section

variable {directory emptied : Directory} {operation path : String}
  {output : Directory.Output} {bytes : List UInt8} {action : Action Writer ℕ}
  {written : ℕ → Task Unit} {size : ℕ}

/-- A writer that had to stop leaves in its output what there is room for. -/
theorem store_content_stopped (output : Directory.Output) (emptied : Directory)
    (bytes : List UInt8) (counted : ℕ) :
    emptied.store output ((Writer.empty output.medium).stopped
        ((Writer.empty output.medium).accepted bytes) counted).content =
      emptied.store output bytes := by
  rw [Writer.content_stopped, Writer.content_empty, List.nil_append,
    Directory.store_accepted]

theorem stops_writeTo_of_not_fits {result : Except Fault ℕ}
    (hcreate : directory.createOutput path = .ok (output, emptied))
    (hpours : Writer.Pours action bytes result)
    (hfits : ¬(Writer.empty output.medium).Fits bytes) :
    Stops (writeTo operation path action written) directory
      (emptied.store output bytes) := by
  obtain ⟨counted, -, -, hstep⟩ := hpours.step_of_not_fits _ hfits
  rw [← store_content_stopped output emptied bytes counted]
  exact ⟨_, comesTo_writeTo_of_error hcreate hstep⟩

theorem exists_stops_writeTo_of_pours {fault : Fault} (written : ℕ → Task Unit)
    (hpours : Writer.Pours action bytes (.error fault)) :
    ∃ after, Stops (writeTo operation path action written) directory after := by
  cases hcreate : directory.createOutput path with
  | error error => exact ⟨_, (stops_createOutput hcreate).bind _⟩
  | ok created =>
      by_cases hfits : (Writer.empty created.1.medium).Fits bytes
      · exact ⟨_, _, comesTo_writeTo_of_error hcreate
          (hpours.step_of_fits _ hfits)⟩
      · exact ⟨_, stops_writeTo_of_not_fits hcreate hpours hfits⟩

theorem delivers_writeTo (operation path : String) (directory : Directory)
    (hpours : Writer.Pours action bytes (.ok size))
    (hquiet : ∀ stored : Directory,
      ComesTo (written size) stored (.ok ()) stored "") :
    Delivers (writeTo operation path action written) directory [(path, bytes)]
      size := by
  apply delivers_of_output
  · intro error hclosed
    exact (stops_createOutput hclosed).bind _
  · intro output emptied hcreate hrefuses
    by_cases hfits : (Writer.empty output.medium).Fits bytes
    · have hcomes := comesTo_writeTo_of_step operation hcreate
        (hpours.step_of_fits _ hfits) hquiet
      rw [Writer.step_flush_of_fits hfits hrefuses, Writer.content_after,
        Writer.content_empty, List.nil_append] at hcomes
      exact ⟨_, hcomes⟩
    · exact stops_writeTo_of_not_fits hcreate hpours hfits
  · intro output emptied hcreate htakes
    have hcomes := comesTo_writeTo_of_step operation hcreate
      (hpours.step_of_fits _ (Writer.fits_of_takesAll htakes)) hquiet
    rwa [Writer.step_flush_of_takesAll htakes, Writer.content_after,
      Writer.content_empty, List.nil_append] at hcomes

theorem pours_lines (lines : List String) :
    Writer.Pours (lines.forM fun line => Writer.putBytes (Text.encode line))
      (lines.flatMap Text.encode) (.ok ()) :=
  (Writer.streams_forM (fun line => Writer.streams_putBytes (Text.encode line))
    lines).pours_of_emits
      (Writer.emits_forM (fun line => Writer.emits_putBytes (Text.encode line)) lines)

theorem stops_writeLines_of_error {lines : List String} {fault : Fault}
    {writer : Writer}
    (hcreate : directory.createOutput path = .ok (output, emptied))
    (haction : (lines.forM fun line =>
      Writer.putBytes (Text.encode line) : Action Writer Unit).step
        (.empty output.medium) = (.error fault, writer)) :
    Stops (writeLines operation path lines) directory
      (emptied.store output writer.content) := by
  refine Stops.bind_of_comesTo (comesTo_createOutput hcreate) ?_
  simp only [haction]
  refine Stops.bind_of_comesTo (comesTo_store output writer) ?_
  exact Stops.bind ⟨_, comesTo_ensure _ _⟩ _

theorem stops_writeLines_of_flush {lines : List String} {fault : Fault}
    {writer flushed : Writer}
    (hcreate : directory.createOutput path = .ok (output, emptied))
    (haction : (lines.forM fun line =>
      Writer.putBytes (Text.encode line) : Action Writer Unit).step
        (.empty output.medium) = (.ok (), writer))
    (hflush : Writer.flush.step writer = (.error fault, flushed)) :
    Stops (writeLines operation path lines) directory
      (emptied.store output writer.content) := by
  refine Stops.bind_of_comesTo (comesTo_createOutput hcreate) ?_
  simp only [haction, hflush]
  refine Stops.bind_of_comesTo (comesTo_store output writer) ?_
  exact Stops.bind_of_comesTo (comesTo_ensure _ _) ⟨_, comesTo_ensure _ _⟩

theorem delivers_writeLines (operation path : String) (directory : Directory)
    (lines : List String) :
    Delivers (writeLines operation path lines) directory
      [(path, lines.flatMap Text.encode)] () := by
  have hpours := pours_lines lines
  apply delivers_of_output
  · intro error hclosed
    exact (stops_createOutput hclosed).bind _
  · intro output emptied hcreate hrefuses
    by_cases hfits : (Writer.empty output.medium).Fits (lines.flatMap Text.encode)
    · have hstops := @stops_writeLines_of_flush _ _ operation _ _ _ _ _ _ hcreate
        (hpours.step_of_fits _ hfits) (Writer.step_flush_of_fits hfits hrefuses)
      rwa [Writer.content_after, Writer.content_empty, List.nil_append] at hstops
    · obtain ⟨counted, -, -, hstep⟩ := hpours.step_of_not_fits _ hfits
      rw [← store_content_stopped output emptied _ counted]
      exact stops_writeLines_of_error hcreate hstep
  · intro output emptied hcreate htakes
    have hcomes := comesTo_writeLines_of_step operation lines hcreate
      (hpours.step_of_fits _ (Writer.fits_of_takesAll htakes))
      (congrArg Prod.fst (Writer.step_flush_of_takesAll htakes))
    rwa [Writer.content_after, Writer.content_empty, List.nil_append] at hcomes

end

/-! ## Runs -/

section

variable {directory after : Directory} {logVariable : Option String}
  {invocation : Invocation} {request : Request} {settings : Settings}
  {outputs : List (String × List UInt8)}

theorem runWith_of_stops (hrequest : invocation.request = request)
    (hstops : Stops (perform settings request) directory after) :
    let outcome := runWith directory logVariable invocation settings
    outcome.exit = 1 ∧ outcome.directory = after := by
  obtain ⟨complaint, hcomes⟩ := hstops
  obtain ⟨hexit, -, -, hafter⟩ :=
    @runWith_of_error _ logVariable _ _ _ _ _ _ hrequest hcomes
  exact ⟨hexit, hafter⟩

theorem exit_zero_iff_acceptsAll (hrequest : invocation.request = request)
    (hdelivers : Delivers (perform settings request) directory outputs ()) :
    let outcome := runWith directory logVariable invocation settings
    outcome.exit = 0 ↔ directory.AcceptsAll outputs outcome.directory := by
  intro outcome
  constructor
  · intro hexit
    obtain ⟨after, haccepts⟩ | ⟨after, hbreaks⟩ :=
      directory.acceptsAll_or_breaksOff outputs
    · obtain ⟨-, -, -, hafter⟩ := @runWith_of_ok _ logVariable _ _ _ _ _ hrequest
        (hdelivers.comesTo after haccepts)
      rwa [← hafter] at haccepts
    · have hstops := @runWith_of_stops _ _ logVariable _ _ _ hrequest
        (hdelivers.stops after hbreaks)
      rw [hstops.1] at hexit
      cases hexit
  · intro haccepts
    exact (runWith_of_ok hrequest (hdelivers.comesTo _ haccepts)).1

theorem writes_of_delivers {path : String} {place : Place} {bytes : List UInt8}
    (hrequest : invocation.request = request)
    (hplace : directory.FileAt path place)
    (hdelivers : Delivers (perform settings request) directory [(path, bytes)] ()) :
    (runWith directory logVariable invocation settings).Writes directory path place
      bytes := by
  have haccepts := Directory.acceptsAll_singleton_iff.mpr (hplace.accepts bytes)
  obtain ⟨hexit, -, -, hafter⟩ := @runWith_of_ok _ logVariable _ _ _ _ _ hrequest
    (hdelivers.comesTo _ haccepts)
  exact ⟨hexit, hplace, hafter⟩

/-- A file that the only output of a run goes to holds all of it if the run ends
well, whatever room there is. -/
theorem directory_eq_of_delivers {path : String} {place : Place}
    {bytes : List UInt8} (hrequest : invocation.request = request)
    (hplace : directory.LeadsToFile path place)
    (hdelivers : Delivers (perform settings request) directory [(path, bytes)] ())
    (hexit : (runWith directory logVariable invocation settings).exit = 0) :
    (runWith directory logVariable invocation settings).directory =
      directory.insert place (.file bytes) := by
  have haccepts := (exit_zero_iff_acceptsAll hrequest hdelivers).mp hexit
  exact (Directory.acceptsAll_singleton_iff.mp haccepts).eq_insert hplace

end

end Command

end PackedTopology
