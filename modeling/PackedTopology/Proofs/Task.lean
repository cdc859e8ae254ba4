import PackedTopology.Command.Run
import PackedTopology.Proofs.Directory
import PackedTopology.Proofs.Emission

/-!
# What the parts of a command come to

A part of a command has a result, leaves a directory and prints a text.  What
was printed or logged before makes no difference to it, and what it logs makes
none to what follows.  Reading leaves the directory as it is; writing to a file
replaces what stands there by what there is room for of the bytes that the writer
took, also when the writer refused.
-/

namespace PackedTopology.Command

namespace Task

variable {α β : Type}

/-- The result of a part of a command, the directory that it leaves and the
text that it prints. -/
def ComesTo (task : Task α) (directory : Directory)
    (result : Except Complaint α) (after : Directory) (printed : String) :
    Prop :=
  ∀ (before : String) (messages : List LogMessage), ∃ more,
    task.run ⟨directory, before, messages⟩ =
      (result, ⟨after, before ++ printed, more⟩)

variable {directory middle after : Directory} {printed : String}

theorem comesTo_pure (value : α) :
    ComesTo (pure value) directory (.ok value) directory "" := by
  intro before messages
  exact ⟨messages, by rw [String.append_empty]; rfl⟩

theorem comesTo_throw (complaint : Complaint) :
    ComesTo (throw complaint : Task α) directory (.error complaint) directory
      "" := by
  intro before messages
  exact ⟨messages, by rw [String.append_empty]; rfl⟩

namespace ComesTo

theorem result_unique {task : Task α} {left right : Except Complaint α}
    {other : Directory} {shown : String}
    (hleft : ComesTo task directory left after printed)
    (hright : ComesTo task directory right other shown) : left = right := by
  obtain ⟨_, hrun⟩ := hleft "" []
  obtain ⟨_, hagain⟩ := hright "" []
  exact congrArg Prod.fst (hrun.symm.trans hagain)

/-- A part that prints nothing is followed by the next one. -/
theorem bind {first : Task α} {next : α → Task β} {value : α}
    {result : Except Complaint β}
    (hfirst : ComesTo first directory (.ok value) middle "")
    (hnext : ComesTo (next value) middle result after printed) :
    ComesTo (first >>= next) directory result after printed := by
  intro before messages
  obtain ⟨more, hstep⟩ := hfirst before messages
  obtain ⟨last, hlast⟩ := hnext before more
  rw [String.append_empty] at hstep
  refine ⟨last, ?_⟩
  rw [← hlast]
  show ExceptT.bindCont next (first.run ⟨directory, before, messages⟩).1
    (first.run ⟨directory, before, messages⟩).2 = _
  rw [hstep]
  rfl

/-- A complaint ends a command. -/
theorem bind_error {first : Task α} {next : α → Task β} {complaint : Complaint}
    (hfirst : ComesTo first directory (.error complaint) after printed) :
    ComesTo (first >>= next) directory (.error complaint) after printed := by
  intro before messages
  obtain ⟨more, hstep⟩ := hfirst before messages
  refine ⟨more, ?_⟩
  show ExceptT.bindCont next (first.run ⟨directory, before, messages⟩).1
    (first.run ⟨directory, before, messages⟩).2 = _
  rw [hstep]
  rfl

end ComesTo

theorem comesTo_ensure {ε : Type} (complaint : ε → Complaint)
    (result : Except ε α) :
    ComesTo (ensure complaint result) directory (result.mapError complaint)
      directory "" := by
  cases result with
  | error error => exact comesTo_throw (complaint error)
  | ok value => exact comesTo_pure value

theorem comesTo_log (level : LogLevel) (source text : String)
    (numbers : List (String × ℕ)) :
    ComesTo (log level source text numbers) directory (.ok ()) directory "" := by
  intro before messages
  exact ⟨_, by rw [String.append_empty]; rfl⟩

theorem comesTo_print (text : String) :
    ComesTo (print text) directory (.ok ()) directory text := by
  intro before messages
  exact ⟨messages, rfl⟩

/-- A part that looks at what was done goes on from there. -/
theorem comesTo_get {next : Progress → Task β} {result : Except Complaint β}
    (hnext : ∀ before messages,
      ComesTo (next ⟨directory, before, messages⟩) directory result after printed) :
    ComesTo (get >>= next) directory result after printed :=
  fun before messages => hnext before messages before messages

theorem comesTo_openInput (directory : Directory) (path : String) :
    ComesTo (openInput path) directory
      ((directory.openInput path).mapError
        (Complaint.ofDevice "opening input file" path))
      directory "" := by
  intro before messages
  exact comesTo_ensure _ _ before messages

theorem comesTo_createOutput {path : String} {output : Directory.Output}
    (hcreate : directory.createOutput path = .ok (output, after)) :
    ComesTo (createOutput path) directory (.ok output) after "" := by
  intro before messages
  refine ⟨messages, ?_⟩
  rw [String.append_empty]
  show (ensure (Complaint.ofDevice "creating output file" path)
    (directory.createOutput path) >>= fun created => do
      set (⟨created.2, before, messages⟩ : Progress)
      return created.1 : Task Directory.Output).run _ = _
  rw [hcreate]
  rfl

theorem comesTo_store (output : Directory.Output) (writer : Writer) :
    ComesTo (store output writer) directory (.ok ())
      (directory.store output writer.content) "" := by
  intro before messages
  exact ⟨messages, by rw [String.append_empty]; rfl⟩

end Task

open PackedTopology.Command.Task

variable {α : Type} {directory emptied : Directory} {path : String}

/-! ## Input -/

theorem openInput_of_file {bytes : List UInt8}
    (hfile : directory.find path = .ok (.file bytes)) :
    directory.openInput path = .ok (.ofList bytes) :=
  bind_eq_ok_iff.mpr ⟨.file bytes, hfile, rfl⟩

theorem fileSize_of_file {bytes : List UInt8}
    (hfile : directory.find path = .ok (.file bytes)) :
    directory.fileSize path = .ok bytes.length :=
  bind_eq_ok_iff.mpr ⟨.file bytes, hfile, rfl⟩

section

variable {read : Option Table.Cells → Table.Cells → Except Table.RowError α}
  {settings : Settings}

theorem comesTo_readTable_of_source {source : Source}
    (hopen : directory.openInput path = .ok source)
    (hwhole : source.breakage = none) :
    ComesTo (readTable read settings path) directory
      ((Table.read read settings.csvHeaders source.rest).mapError fun error =>
        .plain s!"parsing '{path}': {error.message}")
      directory "" := by
  have hsource := comesTo_openInput directory path
  rw [hopen] at hsource
  refine hsource.bind ?_
  simp only [hwhole]
  exact comesTo_ensure _ _

theorem comesTo_readTable_of_file {bytes : List UInt8}
    (hfile : directory.find path = .ok (.file bytes)) :
    ComesTo (readTable read settings path) directory
      ((Table.read read settings.csvHeaders bytes).mapError fun error =>
        .plain s!"parsing '{path}': {error.message}")
      directory "" :=
  comesTo_readTable_of_source (openInput_of_file hfile) rfl

/-- The rows that a command finds in a table. -/
def FindsRows
    (read : Option Table.Cells → Table.Cells → Except Table.RowError α)
    (settings : Settings) (directory : Directory) (path : String)
    (rows : List α) : Prop :=
  ComesTo (readTable read settings path) directory (.ok rows) directory ""

theorem findsRows_iff {bytes : List UInt8} {rows : List α}
    (hfile : directory.find path = .ok (.file bytes)) :
    FindsRows read settings directory path rows ↔
      Table.read read settings.csvHeaders bytes = .ok rows := by
  have htable := @comesTo_readTable_of_file _ _ _ read settings _ hfile
  constructor
  · intro hrows
    have hresult := htable.result_unique hrows
    cases hread : Table.read read settings.csvHeaders bytes with
    | error error =>
        rw [hread] at hresult
        cases hresult
    | ok found =>
        rw [hread] at hresult
        obtain rfl : found = rows := Except.ok.inj hresult
        rfl
  · intro hread
    rwa [hread] at htable

/-- Whatever stands at a path, reading it as a table leaves the directory as it
is. -/
theorem exists_comesTo_readTable (directory : Directory) (path : String) :
    ∃ result, ComesTo (readTable read settings path) directory result directory
      "" := by
  have hopen := comesTo_openInput directory path
  cases hsource : directory.openInput path with
  | error error =>
      rw [hsource] at hopen
      exact ⟨_, hopen.bind_error⟩
  | ok source =>
      cases hbroken : source.breakage with
      | none => exact ⟨_, comesTo_readTable_of_source hsource hbroken⟩
      | some breakage =>
          rw [hsource] at hopen
          -- A source that breaks ends the names quietly, but not the rows.
          by_cases hnamed : settings.csvHeaders = true
          · refine ⟨.ok [], hopen.bind ?_⟩
            simp only [hbroken, hnamed]
            exact comesTo_pure []
          · refine ⟨.error (.plain s!"parsing '{path}': {breakage.2.text}"),
              hopen.bind ?_⟩
            simp only [hbroken, hnamed]
            exact comesTo_throw _

end

theorem comesTo_readFrom_of_source (operation : String)
    (action : Action Reader α) {source : Source}
    (hopen : directory.openInput path = .ok source) :
    ComesTo (readFrom operation path action) directory
      ((action.step (.ofSource source)).1.mapError (Complaint.ofFault operation))
      directory "" := by
  have hsource := comesTo_openInput directory path
  rw [hopen] at hsource
  exact hsource.bind (comesTo_ensure _ _)

theorem comesTo_readFrom (operation : String) (action : Action Reader α)
    {bytes : List UInt8} (hfile : directory.find path = .ok (.file bytes)) :
    ComesTo (readFrom operation path action) directory
      ((action.step (.ofList bytes)).1.mapError (Complaint.ofFault operation))
      directory "" :=
  comesTo_readFrom_of_source operation action (openInput_of_file hfile)

/-! ## Output -/

section

variable {output : Directory.Output} {operation : String}
  {action : Action Writer ℕ} {written : ℕ → Task Unit}

/-- What a writer took before it refused stays in the output. -/
theorem comesTo_writeTo_of_error {fault : Fault} {writer : Writer}
    (hcreate : directory.createOutput path = .ok (output, emptied))
    (haction : action.step (.empty output.medium) = (.error fault, writer)) :
    ComesTo (writeTo operation path action written) directory
      (.error (Complaint.ofFault operation fault))
      (emptied.store output writer.content) "" := by
  refine (comesTo_createOutput hcreate).bind ?_
  simp only [haction]
  exact (comesTo_store output writer).bind (ComesTo.bind_error (comesTo_ensure _ _))

theorem comesTo_writeTo_of_step (operation : String) {size : ℕ} {writer : Writer}
    (hcreate : directory.createOutput path = .ok (output, emptied))
    (haction : action.step (.empty output.medium) = (.ok size, writer))
    (hquiet : ∀ stored : Directory,
      ComesTo (written size) stored (.ok ()) stored "") :
    ComesTo (writeTo operation path action written) directory
      (((Writer.flush.step writer).1.mapError (Complaint.ofFault operation)).map
        fun _ => size)
      (emptied.store output writer.content) "" := by
  refine (comesTo_createOutput hcreate).bind ?_
  simp only [haction]
  refine (comesTo_store output writer).bind ?_
  refine ComesTo.bind (comesTo_ensure _ _) ((hquiet _).bind ?_)
  cases (Writer.flush.step writer).1 with
  | error fault => exact ComesTo.bind_error (comesTo_ensure _ (.error fault))
  | ok value => exact ComesTo.bind (comesTo_ensure _ (.ok value)) (comesTo_pure size)

theorem comesTo_writeLines_of_step (operation : String) (lines : List String)
    {writer : Writer}
    (hcreate : directory.createOutput path = .ok (output, emptied))
    (haction : (lines.forM fun line =>
      Writer.putBytes (Text.encode line) : Action Writer Unit).step
        (.empty output.medium) = (.ok (), writer))
    (hflush : (Writer.flush.step writer).1 = .ok ()) :
    ComesTo (writeLines operation path lines) directory (.ok ())
      (emptied.store output writer.content) "" := by
  refine (comesTo_createOutput hcreate).bind ?_
  simp only [haction]
  refine (comesTo_store output _).bind ?_
  refine ComesTo.bind (comesTo_ensure _ _) ?_
  rw [hflush]
  exact comesTo_ensure _ _

end

/-! ## The program -/

section

variable {logVariable : Option String} {invocation : Invocation}
  {request : Request} {settings : Settings} {after : Directory} {printed : String}

theorem runWith_of_ok (hrequest : invocation.request = request)
    (hcomes : ComesTo (perform settings request) directory (.ok ()) after
      printed) :
    let outcome := runWith directory logVariable invocation settings
    outcome.exit = 0 ∧ outcome.printed = printed ∧ outcome.failure = none ∧
      outcome.directory = after := by
  obtain ⟨more, hrun⟩ := hcomes "" []
  simp [runWith, hrequest, hrun]

theorem runWith_of_error {complaint : Complaint}
    (hrequest : invocation.request = request)
    (hcomes : ComesTo (perform settings request) directory (.error complaint)
      after printed) :
    let outcome := runWith directory logVariable invocation settings
    outcome.exit = Outcome.failureExit ∧ outcome.printed = printed ∧
      outcome.failure = some complaint.text ∧ outcome.directory = after := by
  obtain ⟨more, hrun⟩ := hcomes "" []
  simp [runWith, hrequest, hrun]

theorem exit_ne_zero_of_error {complaint : Complaint}
    (hrequest : invocation.request = request)
    (hcomes : ComesTo (perform settings request) directory (.error complaint)
      after printed) :
    (runWith directory logVariable invocation settings).exit ≠ 0 := by
  rw [(runWith_of_error hrequest hcomes).1]
  exact Nat.one_ne_zero

/-- A run that does not fail and leaves some bytes in a file. -/
structure Outcome.Writes (outcome : Outcome) (directory : Directory)
    (path : String) (place : Place) (bytes : List UInt8) : Prop where
  exit_eq : outcome.exit = 0
  fileAt : directory.FileAt path place
  directory_eq : outcome.directory = directory.insert place (.file bytes)

namespace Outcome.Writes

variable {outcome : Outcome} {place : Place} {bytes : List UInt8}

theorem find_eq (hwrites : outcome.Writes directory path place bytes) :
    outcome.directory.find path = .ok (.file bytes) := by
  rw [hwrites.directory_eq]
  exact hwrites.fileAt.find_insert bytes

theorem keeps_fileAt (hwrites : outcome.Writes directory path place bytes)
    {other : String} {elsewhere : Place}
    (hother : directory.FileAt other elsewhere) :
    outcome.directory.FileAt other elsewhere := by
  rw [hwrites.directory_eq]
  exact hother.after_insert hwrites.fileAt bytes

end Outcome.Writes

/-- A run that ends with a complaint and leaves some bytes in a file, whatever
that held before. -/
structure Outcome.Spoils (outcome : Outcome) (directory : Directory)
    (place : Place) (complaint : Complaint) (left : List UInt8) : Prop where
  exit_eq : outcome.exit = Outcome.failureExit
  failure_eq : outcome.failure = some complaint.text
  left_eq : outcome.directory.node? place = some (.file left)
  others_eq : ∀ other, other ≠ place →
    outcome.directory.node? other = directory.node? other

theorem runWith_of_spoilt {place : Place} {complaint : Complaint}
    {left : List UInt8} (hrequest : invocation.request = request)
    (hplace : directory.FileAt path place)
    (hcomes : ComesTo (perform settings request) directory (.error complaint)
      ((directory.insert place (.file [])).store ⟨.unbounded, some place⟩ left)
      printed) :
    (runWith directory logVariable invocation settings).Spoils directory place
      complaint left := by
  rw [Directory.store_insert, Medium.kept_unbounded] at hcomes
  obtain ⟨hexit, -, hfailure, hafter⟩ := runWith_of_error hrequest hcomes
  refine ⟨hexit, hfailure, ?_, fun other hother => ?_⟩
  · rw [hafter, Directory.node?_insert_self hplace.ne_root]
  · rw [hafter, Directory.node?_insert_of_ne hother]

end

end PackedTopology.Command
