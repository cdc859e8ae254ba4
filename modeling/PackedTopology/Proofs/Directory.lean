import Mathlib.Data.List.Basic
import PackedTopology.Directory

/-!
# Outputs in a directory

A node that is inserted shows at its own place and nowhere else.  A path is
walked through folders, and an output never takes the place of a folder, so
after storing one every path that could be walked before still leads to the
same place.  In particular a path that was opened for writing leads to what
was stored there.  Nothing that is stored changes what room the files have.
-/

namespace PackedTopology

theorem bind_eq_ok_iff {ε α β : Type} {first : Except ε α}
    {next : α → Except ε β} {result : β} :
    first >>= next = .ok result ↔
      ∃ value, first = .ok value ∧ next value = .ok result := by
  cases first with
  | error error => exact ⟨nofun, nofun⟩
  | ok value => exact ⟨fun h => ⟨value, rfl, h⟩, fun ⟨_, rfl, h⟩ => h⟩

namespace Directory

variable {directory other : Directory} {place elsewhere : Place} {node last : Node}

/-! ## What stands at a place -/

section

variable {entries : List (Place × Node)}

/-- The entries with another node at a place. -/
private def replaced (place : Place) (node : Node)
    (entries : List (Place × Node)) : List (Place × Node) :=
  entries.map fun entry => if entry.1 = place then (place, node) else entry

private theorem replaced_cons (key : Place) (value : Node) :
    replaced place node ((key, value) :: entries) =
      (if key = place then (place, node) else (key, value)) ::
        replaced place node entries :=
  rfl

private theorem lookup_replaced_of_ne (hne : elsewhere ≠ place) :
    (replaced place node entries).lookup elsewhere =
      entries.lookup elsewhere := by
  induction entries with
  | nil => rfl
  | cons entry entries ih =>
      obtain ⟨key, value⟩ := entry
      have hbeq : (elsewhere == place) = false := beq_eq_false_iff_ne.mpr hne
      rw [replaced_cons]
      by_cases hkey : key = place
      · rw [if_pos hkey, hkey, List.lookup_cons, List.lookup_cons, hbeq, ih]
      · rw [if_neg hkey, List.lookup_cons, List.lookup_cons, ih]

private theorem lookup_replaced_self
    (hany : (entries.any fun entry => entry.1 = place) = true) :
    (replaced place node entries).lookup place = some node := by
  induction entries with
  | nil => cases hany
  | cons entry entries ih =>
      obtain ⟨key, value⟩ := entry
      rw [replaced_cons]
      by_cases hkey : key = place
      · rw [if_pos hkey, List.lookup_cons_self]
      · have hbeq : (place == key) = false :=
          beq_eq_false_iff_ne.mpr (Ne.symm hkey)
        have hrest : (entries.any fun entry => entry.1 = place) = true := by
          simpa [hkey] using hany
        rw [if_neg hkey, List.lookup_cons, hbeq, ih hrest]

private theorem replaced_replaced :
    replaced place last (replaced place node entries) =
      replaced place last entries := by
  rw [replaced, replaced, List.map_map]
  apply List.map_congr_left
  intro entry _
  by_cases hkey : entry.1 = place <;> simp [hkey]

private theorem any_replaced :
    ((replaced place node entries).any fun entry => entry.1 = place) =
      entries.any fun entry => entry.1 = place := by
  rw [replaced, List.any_map]
  congr 1
  funext entry
  by_cases hkey : entry.1 = place <;> simp [hkey]

private theorem replaced_of_not_any
    (hany : ¬(entries.any fun entry => entry.1 = place) = true) :
    replaced place last entries = entries := by
  apply (List.map_congr_left ?_).trans (List.map_id entries)
  intro entry hentry
  have hkey : entry.1 ≠ place := by
    intro hkey
    exact hany (List.any_eq_true.mpr ⟨entry, hentry, decide_eq_true hkey⟩)
  rw [if_neg hkey, id]

end

theorem nodes_insert :
    (directory.insert place node).nodes =
      if directory.nodes.any fun entry => entry.1 = place then
        replaced place node directory.nodes
      else
        directory.nodes ++ [(place, node)] :=
  rfl

theorem node?_insert_of_ne (hne : elsewhere ≠ place) :
    (directory.insert place node).node? elsewhere =
      directory.node? elsewhere := by
  have hbeq : (elsewhere == place) = false := beq_eq_false_iff_ne.mpr hne
  unfold node?
  rw [nodes_insert]
  by_cases hroot : elsewhere = []
  · rw [if_pos hroot, if_pos hroot]
  rw [if_neg hroot, if_neg hroot]
  split
  · exact lookup_replaced_of_ne hne
  · rw [List.lookup_append, List.lookup_cons, hbeq]
    exact Option.or_none

theorem node?_insert_self (hplace : place ≠ []) :
    (directory.insert place node).node? place = some node := by
  unfold node?
  rw [if_neg hplace, nodes_insert]
  by_cases hany : (directory.nodes.any fun entry => entry.1 = place) = true
  · rw [if_pos hany, lookup_replaced_self hany]
  · have hnone : directory.nodes.lookup place = none := by
      apply List.lookup_eq_none_iff.mpr
      intro entry hentry
      apply bne_iff_ne.mpr
      intro hkey
      exact hany (List.any_eq_true.mpr ⟨entry, hentry, decide_eq_true hkey.symm⟩)
    rw [if_neg hany, List.lookup_append, hnone, Option.none_or,
      List.lookup_cons_self]

/-- Of two nodes that are inserted at one place the last one stays. -/
theorem insert_insert :
    (directory.insert place node).insert place last =
      directory.insert place last := by
  have hnodes : ((directory.insert place node).insert place last).nodes =
      (directory.insert place last).nodes := by
    rw [nodes_insert, nodes_insert, nodes_insert]
    by_cases hany : (directory.nodes.any fun entry => entry.1 = place) = true
    · rw [if_pos hany, any_replaced, if_pos hany, if_pos hany, replaced_replaced]
    · have hadded : ((directory.nodes ++ [(place, node)]).any
          fun entry => entry.1 = place) = true := by simp
      rw [if_neg hany, if_pos hadded, if_neg hany, replaced, List.map_append,
        ← replaced, replaced_of_not_any hany]
      simp
  cases directory
  exact congrArg (Directory.mk · _ _) hnodes

theorem store_insert (medium : Medium) (bytes : List UInt8) :
    (directory.insert place (.file [])).store ⟨medium, some place⟩ bytes =
      directory.insert place (.file (medium.kept bytes)) :=
  insert_insert

/-! ## Walking a path -/

theorem ensureFolder_eq_ok_iff :
    directory.ensureFolder place = .ok () ↔
      directory.node? place = some .folder := by
  unfold ensureFolder
  split <;> simp_all

theorem walk_cons_eq_ok_iff {name : String} {names : List String}
    {reached : Place} :
    directory.walk place (name :: names) = .ok reached ↔
      directory.node? place = some .folder ∧ name.utf8ByteSize ≤ nameLimit ∧
        directory.walk (follow place name) names = .ok reached := by
  rw [walk, bind_eq_ok_iff, ← ensureFolder_eq_ok_iff]
  by_cases hname : nameLimit < name.utf8ByteSize
  · rw [if_pos hname]
    constructor
    · rintro ⟨_, -, hthrow⟩
      cases hthrow
    · rintro ⟨-, hle, -⟩
      omega
  · rw [if_neg hname]
    constructor
    · rintro ⟨_, hfolder, hwalk⟩
      exact ⟨hfolder, Nat.le_of_not_lt hname, hwalk⟩
    · rintro ⟨hfolder, -, hwalk⟩
      exact ⟨(), hfolder, hwalk⟩

theorem walk_append_eq_ok_iff {front back : List String} {reached : Place} :
    directory.walk place (front ++ back) = .ok reached ↔
      ∃ middle, directory.walk place front = .ok middle ∧
        directory.walk middle back = .ok reached := by
  induction front generalizing place with
  | nil =>
      constructor
      · intro hwalk
        exact ⟨place, rfl, hwalk⟩
      · rintro ⟨_, hnil, hwalk⟩
        cases hnil
        exact hwalk
  | cons name front ih =>
      rw [List.cons_append, walk_cons_eq_ok_iff, ih]
      simp only [walk_cons_eq_ok_iff]
      constructor
      · rintro ⟨hfolder, hname, middle, hfront, hback⟩
        exact ⟨middle, ⟨hfolder, hname, hfront⟩, hback⟩
      · rintro ⟨middle, ⟨hfolder, hname, hfront⟩, hback⟩
        exact ⟨hfolder, hname, middle, hfront, hback⟩

/-- A path to a file that can be made: its last name is looked for in a
folder. -/
theorem locateFile_eq_ok_iff {path : String} {reached : Place} :
    directory.locateFile path = .ok reached ↔
      ∃ start above name,
        directory.origin path = .ok start ∧
        Text.parts '/' path = above ++ [name] ∧ name ≠ "" ∧
        directory.walk start (above ++ [name]) = .ok reached := by
  rw [locateFile, bind_eq_ok_iff]
  constructor
  · rintro ⟨start, hstart, hfile⟩
    obtain hparts | ⟨above, name, hparts⟩ :=
      List.eq_nil_or_concat (Text.parts '/' path)
    · rw [hparts] at hfile
      cases hfile
    rw [List.concat_eq_append] at hparts
    rw [hparts, List.reverse_concat] at hfile
    by_cases hname : name = ""
    · -- A slash at the end is refused, wherever the names before it lead.
      subst hname
      have hdrop : ("" :: above.reverse).dropWhile (· = "") =
          above.reverse.dropWhile (· = "") := rfl
      simp only [hdrop] at hfile
      split at hfile
      · cases hfile
      · obtain ⟨_, -, hfile⟩ := bind_eq_ok_iff.mp hfile
        obtain ⟨_, -, hfile⟩ := bind_eq_ok_iff.mp hfile
        cases hfile
    · have hdrop : (name :: above.reverse).dropWhile (· = "") =
          name :: above.reverse := by simp [hname]
      simp only [hdrop, List.reverse_reverse] at hfile
      obtain ⟨middle, hfront, hfile⟩ := bind_eq_ok_iff.mp hfile
      obtain ⟨_, -, hfile⟩ := bind_eq_ok_iff.mp hfile
      rw [if_neg (by simpa using hname)] at hfile
      exact ⟨start, above, name, hstart, hparts, hname,
        walk_append_eq_ok_iff.mpr ⟨middle, hfront, hfile⟩⟩
  · rintro ⟨start, above, name, hstart, hparts, hname, hwalk⟩
    refine ⟨start, hstart, ?_⟩
    obtain ⟨middle, hfront, hlast⟩ := walk_append_eq_ok_iff.mp hwalk
    have hfolder := (walk_cons_eq_ok_iff.mp hlast).1
    have hdrop : (name :: above.reverse).dropWhile (· = "") =
        name :: above.reverse := by simp [hname]
    rw [hparts, List.reverse_concat]
    simp only [hdrop, List.reverse_reverse]
    refine bind_eq_ok_iff.mpr ⟨middle, hfront, ?_⟩
    refine bind_eq_ok_iff.mpr ⟨(), ensureFolder_eq_ok_iff.mpr hfolder, ?_⟩
    rw [if_neg (by simpa using hname)]
    exact hlast

theorem locate_of_locateFile {path : String} {reached : Place}
    (hfile : directory.locateFile path = .ok reached) :
    directory.locate path = .ok reached := by
  obtain ⟨start, above, name, hstart, hparts, -, hwalk⟩ :=
    locateFile_eq_ok_iff.mp hfile
  rw [locate, bind_eq_ok_iff]
  exact ⟨start, hstart, hparts ▸ hwalk⟩

/-! ## Outputs -/

/-- One directory has all that paths of another one are walked through. -/
structure KeepsFolders (directory other : Directory) : Prop where
  working_eq : other.working = directory.working
  folder : ∀ place, directory.node? place = some .folder →
    other.node? place = some .folder

namespace KeepsFolders

theorem walk (hkeeps : KeepsFolders directory other) {names : List String}
    {reached : Place} (hwalk : directory.walk place names = .ok reached) :
    other.walk place names = .ok reached := by
  induction names generalizing place with
  | nil => exact hwalk
  | cons name names ih =>
      obtain ⟨hfolder, hname, hrest⟩ := walk_cons_eq_ok_iff.mp hwalk
      exact walk_cons_eq_ok_iff.mpr ⟨hkeeps.folder place hfolder, hname, ih hrest⟩

theorem origin (hkeeps : KeepsFolders directory other) (path : String) :
    other.origin path = directory.origin path := by
  rw [Directory.origin, Directory.origin, hkeeps.working_eq]

theorem locate (hkeeps : KeepsFolders directory other) {path : String}
    {reached : Place} (hlocate : directory.locate path = .ok reached) :
    other.locate path = .ok reached := by
  rw [Directory.locate, bind_eq_ok_iff] at hlocate ⊢
  obtain ⟨start, hstart, hwalk⟩ := hlocate
  exact ⟨start, (hkeeps.origin path).trans hstart, hkeeps.walk hwalk⟩

theorem locateFile (hkeeps : KeepsFolders directory other) {path : String}
    {reached : Place} (hlocate : directory.locateFile path = .ok reached) :
    other.locateFile path = .ok reached := by
  obtain ⟨start, above, name, hstart, hparts, hname, hwalk⟩ :=
    locateFile_eq_ok_iff.mp hlocate
  exact locateFile_eq_ok_iff.mpr ⟨start, above, name,
    (hkeeps.origin path).trans hstart, hparts, hname, hkeeps.walk hwalk⟩

end KeepsFolders

/-- A path that takes everything that is written to it. -/
def Writable (directory : Directory) (path : String) : Prop :=
  ∃ output emptied, directory.createOutput path = .ok (output, emptied) ∧
    output.medium = .unbounded

/-- A path where a file stands or can be made. -/
structure LeadsToFile (directory : Directory) (path : String) (place : Place) :
    Prop where
  locateFile_eq : directory.locateFile path = .ok place
  file_of_node : ∀ node, directory.node? place = some node →
    ∃ bytes, node = .file bytes

/-- A path where a file stands or can be made that takes everything that is
written to it. -/
structure FileAt (directory : Directory) (path : String) (place : Place) : Prop
    extends directory.LeadsToFile path place where
  medium_eq : directory.medium place = .unbounded

theorem leadsToFile_of_absent {path : String}
    (hlocate : directory.locateFile path = .ok place)
    (hnone : directory.node? place = none) : LeadsToFile directory path place :=
  ⟨hlocate, by simp [hnone]⟩

theorem leadsToFile_of_file {path : String} {bytes : List UInt8}
    (hlocate : directory.locateFile path = .ok place)
    (hfile : directory.node? place = some (.file bytes)) :
    LeadsToFile directory path place :=
  ⟨hlocate, by simp [hfile]⟩

namespace LeadsToFile

variable {path : String}

theorem not_folder (hfile : LeadsToFile directory path place) :
    directory.node? place ≠ some .folder := by
  intro hfolder
  obtain ⟨bytes, hnode⟩ := hfile.file_of_node _ hfolder
  cases hnode

theorem ne_root (hfile : LeadsToFile directory path place) : place ≠ [] := by
  rintro rfl
  exact hfile.not_folder rfl

theorem createOutput (hfile : LeadsToFile directory path place) :
    directory.createOutput path =
      .ok (⟨directory.medium place, some place⟩,
        directory.insert place (.file [])) := by
  refine bind_eq_ok_iff.mpr ⟨place, hfile.locateFile_eq, ?_⟩
  cases hnode : directory.node? place with
  | none => rfl
  | some node =>
      obtain ⟨bytes, rfl⟩ := hfile.file_of_node node hnode
      rfl

/-- A file never takes the place of a folder. -/
theorem keepsFolders (hfile : LeadsToFile directory path place) (node : Node) :
    KeepsFolders directory (directory.insert place node) := by
  refine ⟨rfl, ?_⟩
  intro elsewhere hfolder
  have hne : elsewhere ≠ place := by
    rintro rfl
    exact hfile.not_folder hfolder
  rw [node?_insert_of_ne hne, hfolder]

theorem find_insert (hfile : LeadsToFile directory path place)
    (bytes : List UInt8) :
    (directory.insert place (.file bytes)).find path = .ok (.file bytes) := by
  have hlocate := (hfile.keepsFolders (.file bytes)).locate
    (locate_of_locateFile hfile.locateFile_eq)
  refine bind_eq_ok_iff.mpr ⟨place, hlocate, ?_⟩
  rw [node?_insert_self hfile.ne_root]
  rfl

/-- What is stored elsewhere does not show. -/
theorem find_insert_of_ne (hfile : LeadsToFile directory path place)
    {otherPath : String} (hother : LeadsToFile directory otherPath elsewhere)
    (hne : place ≠ elsewhere) (node : Node) :
    (directory.insert elsewhere node).find path = directory.find path := by
  have hlocate := locate_of_locateFile hfile.locateFile_eq
  have hnode := @node?_insert_of_ne directory _ _ node hne
  rw [find, find, hlocate, (hother.keepsFolders node).locate hlocate]
  simp only [bind, Except.bind, hnode]

/-- What leads to one file still leads there after another one was stored. -/
theorem after_insert (hfile : LeadsToFile directory path place)
    {otherPath : String} (hother : LeadsToFile directory otherPath elsewhere)
    (bytes : List UInt8) :
    LeadsToFile (directory.insert elsewhere (.file bytes)) path place := by
  refine ⟨(hother.keepsFolders _).locateFile hfile.locateFile_eq, ?_⟩
  intro node hnode
  by_cases hplace : place = elsewhere
  · rw [hplace, node?_insert_self hother.ne_root] at hnode
    exact ⟨bytes, (Option.some.inj hnode).symm⟩
  · rw [node?_insert_of_ne hplace] at hnode
    exact hfile.file_of_node node hnode

end LeadsToFile

theorem fileAt_of_absent {path : String}
    (hlocate : directory.locateFile path = .ok place)
    (hnone : directory.node? place = none)
    (hmedium : directory.medium place = .unbounded) :
    FileAt directory path place :=
  ⟨leadsToFile_of_absent hlocate hnone, hmedium⟩

theorem fileAt_of_file {path : String} {bytes : List UInt8}
    (hlocate : directory.locateFile path = .ok place)
    (hfile : directory.node? place = some (.file bytes))
    (hmedium : directory.medium place = .unbounded) :
    FileAt directory path place :=
  ⟨leadsToFile_of_file hlocate hfile, hmedium⟩

namespace FileAt

variable {path : String}

theorem createOutput (hfile : FileAt directory path place) :
    directory.createOutput path =
      .ok (⟨.unbounded, some place⟩, directory.insert place (.file [])) := by
  rw [hfile.toLeadsToFile.createOutput, hfile.medium_eq]

theorem writable (hfile : FileAt directory path place) :
    directory.Writable path :=
  ⟨_, _, hfile.createOutput, rfl⟩

/-- What can be written to one file can still be written to after another one
was stored. -/
theorem after_insert (hfile : FileAt directory path place) {otherPath : String}
    (hother : FileAt directory otherPath elsewhere) (bytes : List UInt8) :
    FileAt (directory.insert elsewhere (.file bytes)) path place :=
  ⟨hfile.toLeadsToFile.after_insert hother.toLeadsToFile bytes, hfile.medium_eq⟩

end FileAt

/-- A path that leads to a device. -/
def DeviceAt (directory : Directory) (path : String) (device : Device) : Prop :=
  ∃ place, directory.locateFile path = .ok place ∧
    directory.node? place = some (.device device)

theorem DeviceAt.find {path : String} {device : Device}
    (hdevice : directory.DeviceAt path device) :
    directory.find path = .ok (.device device) := by
  obtain ⟨place, hlocate, hnode⟩ := hdevice
  refine bind_eq_ok_iff.mpr ⟨place, locate_of_locateFile hlocate, ?_⟩
  rw [hnode]
  rfl

/-- What opening an output comes to: a file that is empty from then on, or a
device, which leaves the directory alone. -/
theorem createOutput_eq_ok_iff {path : String} {output : Output}
    {emptied : Directory} :
    directory.createOutput path = .ok (output, emptied) ↔
      (∃ place, LeadsToFile directory path place ∧
        output = ⟨directory.medium place, some place⟩ ∧
        emptied = directory.insert place (.file [])) ∨
      ∃ device, directory.DeviceAt path device ∧
        output = ⟨Device.medium device, none⟩ ∧ emptied = directory := by
  constructor
  · intro hcreate
    obtain ⟨place, hlocate, houtput⟩ := bind_eq_ok_iff.mp hcreate
    cases hnode : directory.node? place with
    | none =>
        rw [hnode] at houtput
        cases houtput
        exact .inl ⟨place, leadsToFile_of_absent hlocate hnode, rfl, rfl⟩
    | some node =>
        rw [hnode] at houtput
        cases node with
        | folder => cases houtput
        | file held =>
            cases houtput
            exact .inl ⟨place, leadsToFile_of_file hlocate hnode, rfl, rfl⟩
        | device device =>
            cases houtput
            exact .inr ⟨device, ⟨place, hlocate, hnode⟩, rfl, rfl⟩
  · rintro (⟨place, hplace, rfl, rfl⟩ | ⟨device, hdevice, rfl, rfl⟩)
    · exact hplace.createOutput
    · obtain ⟨place, hlocate, hnode⟩ := hdevice
      refine bind_eq_ok_iff.mpr ⟨place, hlocate, ?_⟩
      rw [hnode]
      rfl

/-- A path that takes everything leads to a file or to a device. -/
theorem Writable.fileAt_or_device {path : String}
    (hwritable : directory.Writable path) :
    (∃ place, FileAt directory path place) ∨
      ∃ device, directory.find path = .ok (.device device) := by
  obtain ⟨output, emptied, hcreate, hmedium⟩ := hwritable
  obtain ⟨place, hplace, rfl, -⟩ | ⟨device, hdevice, -⟩ :=
    createOutput_eq_ok_iff.mp hcreate
  · exact .inl ⟨place, hplace, hmedium⟩
  · exact .inr ⟨device, hdevice.find⟩

end Directory

end PackedTopology
